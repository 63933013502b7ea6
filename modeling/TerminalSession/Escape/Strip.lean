/-!
# Removing escape sequences

Terminal output mixes text with sequences that move the cursor, set colours and name the window.
Four kinds are recognised, each begun by the escape character:

* control sequences: `[`, parameters, and a letter;
* system commands: `]`, any characters, and a bell or an escape followed by a backslash;
* charset selections: `(` or `)` and a capital or a digit;
* single-character functions such as keypad modes.

`strip` removes them from left to right. An escape that begins none of these is removed alone, and
what follows it stays as text.
-/

namespace TerminalSession.Escape

set_option autoImplicit false

/-- The escape character. -/
def esc : Char := Char.ofNat 0x1B

/-- The bell, which ends a system command. -/
def bell : Char := Char.ofNat 0x07

/-- A parameter character of a control sequence. -/
def isParameter (c : Char) : Bool := ('0' ≤ c && c ≤ '9') || c == ';' || c == '?'

/-- A letter, which ends a control sequence. -/
def isLetter (c : Char) : Bool := ('A' ≤ c && c ≤ 'Z') || ('a' ≤ c && c ≤ 'z')

/-- A character that names a charset. -/
def isCharset (c : Char) : Bool := ('A' ≤ c && c ≤ 'Z') || ('0' ≤ c && c ≤ '9')

/-- A function that is a single character. -/
def isFunction (c : Char) : Bool := "=>MNOP78".toList.contains c

/-- What follows a control sequence, given what follows its bracket. -/
def afterControl (text : List Char) : Option (List Char) :=
  match text.dropWhile isParameter with
  | c :: rest => if isLetter c then some rest else none
  | [] => none

/-- What follows a system command, given what follows its bracket. -/
def afterCommand (text : List Char) : Option (List Char) :=
  match text.dropWhile fun c => c != bell && c != esc with
  | c :: rest =>
    if c = bell then some rest
    else match rest with
      | '\\' :: rest => some rest
      | _ => none
  | [] => none

/-- What follows a charset selection, given what follows its parenthesis. -/
def afterCharset : List Char → Option (List Char)
  | c :: rest => if isCharset c then some rest else none
  | [] => none

/-- What follows an escape sequence, given what follows its escape character; `none` if none of the
four kinds is there. -/
def afterSequence? : List Char → Option (List Char)
  | [] => none
  | c :: rest =>
    if c = '[' then afterControl rest
    else if c = ']' then afterCommand rest
    else if c = '(' || c = ')' then afterCharset rest
    else if isFunction c then some rest
    else none

/-- What stripping goes on with after an escape character. -/
def afterEscape (text : List Char) : List Char := (afterSequence? text).getD text

theorem length_dropWhile_le (p : Char → Bool) (text : List Char) :
    (text.dropWhile p).length ≤ text.length :=
  (List.dropWhile_suffix p).length_le

theorem length_afterControl {text rest : List Char} (h : afterControl text = some rest) :
    rest.length ≤ text.length := by
  have hd := length_dropWhile_le isParameter text
  unfold afterControl at h
  split at h
  · rename_i c r heq
    rw [heq] at hd
    split at h
    · cases h; simp at hd; omega
    · cases h
  · cases h

theorem length_afterCommand {text rest : List Char} (h : afterCommand text = some rest) :
    rest.length ≤ text.length := by
  have hd := length_dropWhile_le (fun c => c != bell && c != esc) text
  unfold afterCommand at h
  split at h
  · rename_i c r heq
    rw [heq] at hd
    split at h
    · cases h; simp at hd; omega
    · split at h
      · cases h; simp at hd; omega
      · cases h
  · cases h

theorem length_afterCharset {text rest : List Char} (h : afterCharset text = some rest) :
    rest.length ≤ text.length := by
  cases text with
  | nil => cases h
  | cons c r =>
    simp only [afterCharset] at h
    split at h
    · cases h; simp
    · cases h

theorem length_afterSequence? {text rest : List Char} (h : afterSequence? text = some rest) :
    rest.length ≤ text.length := by
  cases text with
  | nil => cases h
  | cons c r =>
    simp only [afterSequence?] at h
    simp only [List.length_cons]
    split at h
    · have := length_afterControl h; omega
    · split at h
      · have := length_afterCommand h; omega
      · split at h
        · have := length_afterCharset h; omega
        · split at h
          · cases h; omega
          · cases h

theorem length_afterEscape_le (text : List Char) : (afterEscape text).length ≤ text.length := by
  unfold afterEscape
  cases h : afterSequence? text with
  | none => simp
  | some rest => simpa using length_afterSequence? h

/-- The text without its escape sequences. -/
def strip : List Char → List Char
  | [] => []
  | c :: rest => if c = esc then strip (afterEscape rest) else c :: strip rest
termination_by text => text.length
decreasing_by
  all_goals have := length_afterEscape_le rest
  all_goals simp only [List.length_cons]
  all_goals omega

end TerminalSession.Escape
