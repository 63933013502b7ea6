import TerminalSession.Escape.Strip

/-!
# Well-formed output, and what stripping leaves of it

`Sequence` is the grammar of the escape sequences that are recognised, each with the proof that its
characters are those the grammar asks for, so that a sequence that is not well-formed cannot be
written down. A stream of output is a list of items: characters other than the escape, of which runs
make up the texts, and sequences.

`strip_render_append` is the law: a well-formed beginning is left with its texts, in order, whatever
comes behind it. What comes behind need not be well-formed, and two such cases are settled here,
because a stream cut in two brings them about: a system command that nothing ends, and the
terminator of one that something else began.

The remaining malformed texts are not classified.
-/

set_option autoImplicit false

namespace TerminalSession.Escape

/-- What ends a system command. -/
inductive Terminator where
  | bell
  /-- The string terminator: an escape and a backslash. -/
  | string
  deriving DecidableEq, Repr

/-- The characters of a terminator. -/
def Terminator.text : Terminator → List Char
  | .bell => [Escape.bell]
  | .string => [esc, '\\']

/-- A well-formed escape sequence, of one of the four kinds. -/
inductive Sequence where
  | control (parameters : List Char) (final : Char)
      (hparameters : ∀ c ∈ parameters, isParameter c = true) (hfinal : isLetter final = true)
  | command (body : List Char) (terminator : Terminator)
      (hbody : ∀ c ∈ body, c ≠ Escape.bell ∧ c ≠ esc)
  | charset (opening name : Char)
      (hopening : opening = '(' ∨ opening = ')') (hname : isCharset name = true)
  | function (name : Char) (hname : isFunction name = true)

/-- What follows the escape character. -/
def Sequence.body : Sequence → List Char
  | .control parameters final _ _ => '[' :: parameters ++ [final]
  | .command body terminator _ => ']' :: body ++ terminator.text
  | .charset opening name _ _ => [opening, name]
  | .function name _ => [name]

/-- The characters of a sequence. -/
def Sequence.text (s : Sequence) : List Char := esc :: s.body

/-- A piece of well-formed output: a character that stands for itself, or a sequence. -/
inductive Item where
  | plain (c : Char) (h : c ≠ esc)
  | sequence (s : Sequence)

/-- The characters of an item. -/
def Item.text : Item → List Char
  | .plain c _ => [c]
  | .sequence s => s.text

/-- What of an item is meant to be read. -/
def Item.meant : Item → List Char
  | .plain c _ => [c]
  | .sequence _ => []

/-- The output that items make up. -/
def render (items : List Item) : List Char := items.flatMap Item.text

/-- The texts among the items. -/
def meant (items : List Item) : List Char := items.flatMap Item.meant

@[simp] theorem render_nil : render [] = [] := rfl

theorem render_cons (item : Item) (items : List Item) :
    render (item :: items) = item.text ++ render items := rfl

theorem meant_cons (item : Item) (items : List Item) :
    meant (item :: items) = item.meant ++ meant items := rfl

theorem render_append (items more : List Item) :
    render (items ++ more) = render items ++ render more :=
  List.flatMap_append

/-! ## The grammar is what is recognised -/

theorem isParameter_of_isLetter {c : Char} (h : isLetter c = true) : isParameter c = false := by
  simp only [isLetter, Bool.or_eq_true, Bool.and_eq_true, decide_eq_true_eq, Char.le_def,
    UInt32.le_iff_toNat_le] at h
  have hsemicolon : c ≠ ';' := by
    rintro rfl
    revert h
    decide
  have hquestion : c ≠ '?' := by
    rintro rfl
    revert h
    decide
  have hdigit : ('0' ≤ c && c ≤ '9') = false := by
    rw [← Bool.not_eq_true, Bool.and_eq_true, decide_eq_true_eq, decide_eq_true_eq, Char.le_def,
      Char.le_def, UInt32.le_iff_toNat_le, UInt32.le_iff_toNat_le]
    rintro ⟨-, hle⟩
    have h9 : '9'.val.toNat = 57 := rfl
    have hA : 'A'.val.toNat = 65 := rfl
    have ha : 'a'.val.toNat = 97 := rfl
    omega
  simp only [isParameter, hdigit, Bool.false_or, Bool.or_eq_false_iff, beq_eq_false_iff_ne]
  exact ⟨hsemicolon, hquestion⟩

theorem afterControl_append {parameters : List Char} {final : Char}
    (hparameters : ∀ c ∈ parameters, isParameter c = true) (hfinal : isLetter final = true)
    (rest : List Char) : afterControl (parameters ++ final :: rest) = some rest := by
  have hstop : ¬isParameter final = true := ne_true_of_eq_false (isParameter_of_isLetter hfinal)
  rw [afterControl, List.dropWhile_append_of_pos hparameters, List.dropWhile_cons_of_neg hstop]
  exact if_pos hfinal

/-- The body of a system command is read to its end. -/
theorem dropWhile_body {body : List Char} (hbody : ∀ c ∈ body, c ≠ bell ∧ c ≠ esc)
    (rest : List Char) :
    (body ++ rest).dropWhile (fun c => c != bell && c != esc) =
      rest.dropWhile fun c => c != bell && c != esc :=
  List.dropWhile_append_of_pos fun c hc => by
    simp only [bne_iff_ne, ne_eq, Bool.and_eq_true]
    exact hbody c hc

theorem afterCommand_append {body : List Char} (hbody : ∀ c ∈ body, c ≠ bell ∧ c ≠ esc)
    (terminator : Terminator) (rest : List Char) :
    afterCommand (body ++ (terminator.text ++ rest)) = some rest := by
  rw [afterCommand, dropWhile_body hbody]
  cases terminator with
  | bell => rfl
  | string => rfl

/-- A sequence is recognised whole, and nothing behind it is taken for a part of it. -/
theorem afterSequence?_body (s : Sequence) (rest : List Char) :
    afterSequence? (s.body ++ rest) = some rest := by
  cases s with
  | control parameters final hparameters hfinal =>
    simp only [Sequence.body, List.cons_append, List.append_assoc, List.nil_append, afterSequence?,
      if_true]
    exact afterControl_append hparameters hfinal rest
  | command body terminator hbody =>
    have hne : (']' = '[') = False := by decide
    simp only [Sequence.body, List.cons_append, List.append_assoc, afterSequence?, hne, if_false,
      if_true]
    exact afterCommand_append hbody terminator rest
  | charset opening name hopening hname =>
    rcases hopening with rfl | rfl
    · exact if_pos hname
    · exact if_pos hname
  | function name hname =>
    have hne : ∀ c, isFunction c = false → (name = c) = False := by
      intro c hc
      refine eq_false fun h => ?_
      rw [h, hc] at hname
      exact Bool.false_ne_true hname
    simp only [Sequence.body, List.cons_append, List.nil_append, afterSequence?,
      hne '[' (by decide), hne ']' (by decide), hne '(' (by decide), hne ')' (by decide), hname,
      if_false, if_true, decide_false, Bool.or_self, Bool.false_eq_true]

/-! ## What stripping leaves -/

theorem strip_cons_of_ne {c : Char} (h : c ≠ esc) (rest : List Char) :
    strip (c :: rest) = c :: strip rest := by
  rw [strip, if_neg h]

theorem strip_esc (rest : List Char) : strip (esc :: rest) = strip (afterEscape rest) := by
  rw [strip, if_pos rfl]

@[simp] theorem strip_nil : strip [] = [] := by rw [strip]

/-- A text without escapes stays as it is. -/
theorem strip_eq_self {text : List Char} (h : ∀ c ∈ text, c ≠ esc) : strip text = text := by
  induction text with
  | nil => exact strip_nil
  | cons c text ih =>
    obtain ⟨hc, htext⟩ := List.forall_mem_cons.mp h
    rw [strip_cons_of_ne hc, ih htext]

theorem strip_of_esc_not_mem {text : List Char} (h : esc ∉ text) : strip text = text :=
  strip_eq_self fun _ hc heq => h (heq ▸ hc)

theorem strip_item (item : Item) (rest : List Char) :
    strip (item.text ++ rest) = item.meant ++ strip rest := by
  cases item with
  | plain c h => exact strip_cons_of_ne h rest
  | sequence s =>
    show strip (esc :: (s.body ++ rest)) = strip rest
    rw [strip_esc, afterEscape, afterSequence?_body, Option.getD_some]

/-- **Of well-formed output its texts are left**, whatever comes behind it. -/
theorem strip_render_append (items : List Item) (rest : List Char) :
    strip (render items ++ rest) = meant items ++ strip rest := by
  induction items with
  | nil => rfl
  | cons item items ih =>
    rw [render_cons, List.append_assoc, strip_item, ih, meant_cons, List.append_assoc]

theorem strip_render (items : List Item) : strip (render items) = meant items := by
  have h := strip_render_append items []
  rwa [strip_nil, List.append_nil, List.append_nil] at h

theorem afterCommand_unended {body : List Char} (hbody : ∀ c ∈ body, c ≠ bell ∧ c ≠ esc) :
    afterCommand body = none := by
  have h := dropWhile_body hbody []
  rw [List.append_nil] at h
  rw [afterCommand, h]
  rfl

/-- A system command that nothing ends is not one: only its escape is taken out. -/
theorem strip_unended {body : List Char} (hbody : ∀ c ∈ body, c ≠ bell ∧ c ≠ esc) :
    strip (esc :: ']' :: body) = ']' :: body := by
  have hescape : afterEscape (']' :: body) = ']' :: body := by
    have hne : (']' = '[') = False := by decide
    simp only [afterEscape, afterSequence?, hne, if_false, if_true, afterCommand_unended hbody,
      Option.getD_none]
  rw [strip_esc, hescape]
  exact strip_eq_self (List.forall_mem_cons.mpr ⟨by decide, fun c hc => (hbody c hc).2⟩)

/-- A string terminator that ends nothing leaves its backslash. -/
theorem strip_terminator (rest : List Char) :
    strip (Terminator.string.text ++ rest) = '\\' :: strip rest := by
  have hescape : afterEscape ('\\' :: rest) = '\\' :: rest := by
    have hbracket : ('\\' = '[') = False := by decide
    have hclosing : ('\\' = ']') = False := by decide
    have hopen : (decide ('\\' = '(') || decide ('\\' = ')')) = false := by decide
    have hfunction : isFunction '\\' = false := by decide
    simp only [afterEscape, afterSequence?, hbracket, hclosing, hopen, hfunction, if_false,
      Bool.false_eq_true, Option.getD_none]
  show strip (esc :: '\\' :: rest) = _
  rw [strip_esc, hescape, strip_cons_of_ne (by decide)]

end TerminalSession.Escape
