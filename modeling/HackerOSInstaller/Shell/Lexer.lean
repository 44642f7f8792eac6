import Mathlib.Data.List.Basic

/-!
# Shell token recognition

`chroot /mnt /bin/bash -c line` hands each user-setup line to a shell, which
first cuts it into tokens (POSIX, XCU 2.3): operators by longest match, words
with their quoting removed, blanks and comments dropped.  The recogniser
below reads one character at a time through a `LexState`.  A `$` or a
backquote starts an expansion, a nested construct this model does not
follow: the recogniser reports it.  Brace, tilde and pathname expansion
act on a word once it is cut, so the recogniser keeps their characters
in the word; `isPlain` leaves them out of the characters for which a word
stands for itself.
-/

namespace HackerOSInstaller

namespace Shell

/-- A token of a command line; a word's text has its quoting removed. -/
inductive Token where
  | word (text : String)
  | operator (text : String)
  | newline
  deriving DecidableEq, Repr

/-- Why a line is not cut into tokens. -/
inductive LexError where
  | unterminated
  | expansion
  deriving DecidableEq, Repr

/-- The operators of the shell grammar. -/
def operators : List String :=
  ["&&", "||", ";;", "<<", ">>", "<&", ">&", "<>", "<<-", ">|", "|", "&", ";", "<", ">", "(",
    ")"]

def isOperatorStart (c : Char) : Bool :=
  c ∈ ['|', '&', ';', '<', '>', '(', ')']

def isBlank (c : Char) : Bool :=
  c == ' ' || c == '\t'

/-- A character that stands for itself in an unquoted word: it delimits no
token, quotes nothing, starts no expansion or comment, and takes no part in
brace (`{`, `,`, `}`), tilde (`~`) or pathname (`*`, `?`, `[`, `]`)
expansion. -/
def isPlain (c : Char) : Bool :=
  !isBlank c && c != '\n' && !isOperatorStart c &&
    c ∉ ['\'', '"', '\\', '$', '`', '#', '{', '}', ',', '*', '?', '[', ']', '~']

/-- Where the recogniser stands: `text` is the current word so far. -/
inductive LexState where
  | between
  | word (text : List Char)
  | single (text : List Char)
  | double (text : List Char)
  | escape (text : List Char) (started : Bool)
  | doubleEscape (text : List Char)
  | operator (text : List Char)
  | comment
  deriving DecidableEq, Repr

/-- The result of reading characters: tokens emitted, and the state reached. -/
abbrev Lexed := Except LexError (List Token × LexState)

/-- A character inside an unquoted word (possibly just begun). -/
def inWord (text : List Char) (c : Char) : Lexed :=
  if c = '\'' then .ok ([], .single text)
  else if c = '"' then .ok ([], .double text)
  else if c = '\\' then .ok ([], .escape text true)
  else if c = '$' ∨ c = '`' then .error .expansion
  else if c = '\n' then .ok ([.word ⟨text⟩, .newline], .between)
  else if isBlank c then .ok ([.word ⟨text⟩], .between)
  else if isOperatorStart c then .ok ([.word ⟨text⟩], .operator [c])
  else .ok ([], .word (text ++ [c]))

/-- A character read where no token has begun. -/
def start (c : Char) : Lexed :=
  if c = '\n' then .ok ([.newline], .between)
  else if isBlank c then .ok ([], .between)
  else if c = '#' then .ok ([], .comment)
  else if c = '\\' then .ok ([], .escape [] false)
  else if isOperatorStart c then .ok ([], .operator [c])
  else inWord [] c

/-- Read one character. -/
def step : LexState → Char → Lexed
  | .between, c => start c
  | .word text, c => inWord text c
  | .single text, c => if c = '\'' then .ok ([], .word text) else .ok ([], .single (text ++ [c]))
  | .double text, c =>
      if c = '"' then .ok ([], .word text)
      else if c = '\\' then .ok ([], .doubleEscape text)
      else if c = '$' ∨ c = '`' then .error .expansion
      else .ok ([], .double (text ++ [c]))
  | .doubleEscape text, c =>
      if c ∈ ['$', '`', '"', '\\'] then .ok ([], .double (text ++ [c]))
      else if c = '\n' then .ok ([], .double text)
      else .ok ([], .double (text ++ ['\\', c]))
  | .escape text started, c =>
      if c = '\n' then .ok ([], if started then .word text else .between)
      else .ok ([], .word (text ++ [c]))
  | .operator text, c =>
      if String.mk (text ++ [c]) ∈ operators then .ok ([], .operator (text ++ [c]))
      else
        match start c with
        | .error error => .error error
        | .ok (emitted, next) => .ok (.operator ⟨text⟩ :: emitted, next)
  | .comment, c => if c = '\n' then .ok ([.newline], .between) else .ok ([], .comment)

/-- Read characters in order. -/
def run : LexState → List Char → Lexed
  | state, [] => .ok ([], state)
  | state, c :: rest =>
      match step state c with
      | .error error => .error error
      | .ok (emitted, next) =>
          match run next rest with
          | .error error => .error error
          | .ok (later, final) => .ok (emitted ++ later, final)

/-- The end of the line delimits the current token. -/
def finish : LexState → Except LexError (List Token)
  | .between | .comment => .ok []
  | .word text => .ok [.word ⟨text⟩]
  | .operator text => .ok [.operator ⟨text⟩]
  | .single _ | .double _ | .doubleEscape _ | .escape _ _ => .error .unterminated

/-- Cut a command line into tokens. -/
def tokenize (line : String) : Except LexError (List Token) :=
  match run .between line.data with
  | .error error => .error error
  | .ok (tokens, final) =>
      match finish final with
      | .error error => .error error
      | .ok last => .ok (tokens ++ last)

/-- What a token contributes to a command's structure: a word's text is
forgotten. -/
inductive Shape where
  | word
  | operator (text : String)
  | newline
  deriving DecidableEq, Repr

def Token.shape : Token → Shape
  | .word _ => .word
  | .operator text => .operator text
  | .newline => .newline

theorem run_append (state : LexState) (first second : List Char) :
    run state (first ++ second) =
      match run state first with
      | .error error => .error error
      | .ok (emitted, middle) =>
          match run middle second with
          | .error error => .error error
          | .ok (later, final) => .ok (emitted ++ later, final) := by
  induction first generalizing state with
  | nil => simp only [List.nil_append, run]; split <;> simp_all
  | cons c first ih =>
      rw [List.cons_append, run, run]
      rcases step state c with _ | ⟨emitted, next⟩
      · rfl
      · dsimp only
        rw [ih]
        rcases run next first with _ | ⟨later, middle⟩
        · rfl
        · dsimp only
          rcases run middle second with _ | ⟨last, final⟩ <;> simp

theorem run_word_plain (text chars : List Char) (plain : ∀ c ∈ chars, isPlain c = true) :
    run (.word text) chars = .ok ([], .word (text ++ chars)) := by
  induction chars generalizing text with
  | nil => simp [run]
  | cons c chars ih =>
      have plainHead := plain c (List.mem_cons_self c chars)
      have extends_ : step (.word text) c = .ok ([], .word (text ++ [c])) := by
        simp only [isPlain, Bool.and_eq_true, Bool.not_eq_true', bne_iff_ne, ne_eq,
          decide_eq_true_eq, List.mem_cons, List.mem_singleton, not_or] at plainHead
        simp [step, inWord, plainHead]
      simp [run, extends_, ih (text ++ [c]) fun c' member => plain c' (List.mem_cons_of_mem c member)]

theorem run_single (text chars : List Char) (unquoted : '\'' ∉ chars) :
    run (.single text) chars = .ok ([], .single (text ++ chars)) := by
  induction chars generalizing text with
  | nil => simp [run]
  | cons c chars ih =>
      have notQuote : c ≠ '\'' := fun isQuote => unquoted (isQuote ▸ List.mem_cons_self c chars)
      simp [run, step, notQuote, ih (text ++ [c]) fun member => unquoted (List.mem_cons_of_mem c member)]

end Shell

end HackerOSInstaller
