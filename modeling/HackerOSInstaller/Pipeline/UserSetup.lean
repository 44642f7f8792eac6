import HackerOSInstaller.Shell.Lexer
import HackerOSInstaller.Pipeline.Install
import HackerOSInstaller.Wizard.Enterable

/-!
# The user-setup command lines

`perform_installation` writes the username and the password into three
shell command lines unescaped.  When the username is made of characters
that stand for themselves in a shell word and the password has no single
quote, the shell reads each line as the same fixed command: `useradd` with
the username as its one last argument, `echo` of one line `user:password`
piped to `chpasswd`, and `echo` of one sudoers line appended to
`/etc/sudoers`.  Other names change the commands: a `;` in a username
starts a second command.
-/

namespace HackerOSInstaller

open Shell

theorem run_between_plain {chars : List Char} (nonEmpty : chars ≠ [])
    (plain : ∀ c ∈ chars, isPlain c = true) : run .between chars = .ok ([], .word chars) := by
  obtain ⟨c, rest, rfl⟩ := List.exists_cons_of_ne_nil nonEmpty
  have plainHead := plain c (List.mem_cons_self c rest)
  have started : step .between c = .ok ([], .word [c]) := by
    simp only [isPlain, Bool.and_eq_true, Bool.not_eq_true', bne_iff_ne, ne_eq,
      decide_eq_true_eq, List.mem_cons, List.mem_singleton, not_or] at plainHead
    simp [step, start, inWord, plainHead]
  rw [run, started]
  simp [run_word_plain [c] rest fun c' member => plain c' (List.mem_cons_of_mem c member)]

theorem quote_not_mem_of_plain {chars : List Char} (plain : ∀ c ∈ chars, isPlain c = true) :
    '\'' ∉ chars := fun member => by
  simpa [isPlain] using plain _ member

theorem newline_not_mem_of_plain {chars : List Char} (plain : ∀ c ∈ chars, isPlain c = true) :
    '\n' ∉ chars := fun member => by
  simpa [isPlain] using plain _ member

/-- For a username of plain characters and a password without a single
quote or a line break, the three user-setup lines are the fixed commands,
the username and the password only filling their words. -/
theorem userSetup_tokens {username password : String} (nonEmpty : username ≠ "")
    (plain : ∀ c ∈ username.data, isPlain c = true) (quoteFree : '\'' ∉ password.data)
    (oneLine : '\n' ∉ password.data) :
    tokenize (useraddCommand username) =
        .ok [.word "useradd", .word "-m", .word "-G", .word "sudo", .word username] ∧
      tokenize (chpasswdCommand username password) =
        .ok [.word "echo", .word (username ++ ":" ++ password), .operator "|", .word "chpasswd"] ∧
      '\n' ∉ (username ++ ":" ++ password).data ∧
      tokenize (sudoersCommand username) =
        .ok [.word "echo", .word (username ++ " ALL=(ALL) ALL"), .operator ">>",
          .word "/etc/sudoers"] ∧
      '\n' ∉ (username ++ " ALL=(ALL) ALL").data := by
  have filled : username.data ≠ [] := fun empty => nonEmpty (String.ext empty)
  have unquoted := quote_not_mem_of_plain plain
  have useradd : run .between "useradd -m -G sudo ".data =
      .ok ([.word "useradd", .word "-m", .word "-G", .word "sudo"], .between) := rfl
  have echo : run .between "echo '".data = .ok ([.word "echo"], .single []) := rfl
  have colon (text : List Char) : run (.single text) ":".data = .ok ([], .single (text ++ [':'])) :=
    rfl
  have piped (text : List Char) : run (.single text) "' | chpasswd".data =
      .ok ([.word ⟨text⟩, .operator "|"], .word "chpasswd".data) := rfl
  have appended (text : List Char) : run (.single text) "' >> /etc/sudoers".data =
      .ok ([.word ⟨text⟩, .operator ">>"], .word "/etc/sudoers".data) := rfl
  refine ⟨?_, ?_, ?_, ?_, ?_⟩
  · simp only [tokenize, useraddCommand, String.data_append, run_append, useradd,
      run_between_plain filled plain]
    rfl
  · simp only [tokenize, chpasswdCommand, String.data_append, List.append_assoc, run_append, echo,
      run_single [] _ unquoted, colon, run_single _ _ quoteFree, piped]
    simp [finish, String.ext_iff]
  · simp [newline_not_mem_of_plain plain, oneLine]
  · have split : " ALL=(ALL) ALL' >> /etc/sudoers".data =
        " ALL=(ALL) ALL".data ++ "' >> /etc/sudoers".data := rfl
    rw [tokenize, sudoersCommand, String.data_append, String.data_append, split]
    simp only [List.append_assoc, run_append, echo, run_single [] _ unquoted,
      run_single _ " ALL=(ALL) ALL".data (by decide), appended]
    simp [finish, String.ext_iff]
  · simp [newline_not_mem_of_plain plain]

theorem alice_userSetup_tokens :
    tokenize (useraddCommand "alice") =
        .ok [.word "useradd", .word "-m", .word "-G", .word "sudo", .word "alice"] ∧
      tokenize (chpasswdCommand "alice" "x") =
        .ok [.word "echo", .word ("alice" ++ ":" ++ "x"), .operator "|", .word "chpasswd"] ∧
      '\n' ∉ ("alice" ++ ":" ++ "x").data ∧
      tokenize (sudoersCommand "alice") =
        .ok [.word "echo", .word ("alice" ++ " ALL=(ALL) ALL"), .operator ">>", .word "/etc/sudoers"] ∧
      '\n' ∉ ("alice" ++ " ALL=(ALL) ALL").data :=
  userSetup_tokens (by decide) (by decide) (by decide) (by decide)

/-- The wizard hands off the username `a;b`, and the shell reads its
user-creation line as two commands. -/
theorem semicolon_username_splits_useradd :
    HandsOff InstallerState.username "a;b" ∧
      tokenize (useraddCommand "a;b") =
        .ok [.word "useradd", .word "-m", .word "-G", .word "sudo", .word "a", .operator ";",
          .word "b"] ∧
      (tokenize (useraddCommand "a;b")).map (List.map Token.shape) ≠
        (tokenize (useraddCommand "alice")).map (List.map Token.shape) :=
  ⟨⟨_, _, by decide, runApp_usernameRun (by decide) (by decide), rfl⟩, rfl,
    ne_of_apply_ne Except.toOption (by decide)⟩

end HackerOSInstaller
