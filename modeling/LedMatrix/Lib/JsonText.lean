import LedMatrix.Lib.CText

/-!
# JSON texts

The texts of JSON values as bytes. A value is a tree that keeps the white space and
the spelling of its text, so that every text is the text of a tree and each member
of an object has its place in it.
-/

namespace JsonText

open CText

/-! ## Leaves -/

/-- White space between two tokens. -/
structure Blank where
  bytes : List UInt8
  blank : ∀ c ∈ bytes, c = 0x20 ∨ c = 0x09 ∨ c = 0x0a ∨ c = 0x0d

/-- No white space. -/
def Blank.none : Blank := ⟨[], by simp⟩

/-- Decimal digits, at least one. -/
structure Digits where
  bytes : List UInt8
  ne_nil : bytes ≠ []
  digits : ∀ c ∈ bytes, isDigit c = true

/-- The sign of an exponent, if there is one. -/
inductive ExponentSign
  | none
  | plus
  | minus

/-- The text of a sign. -/
def ExponentSign.text : ExponentSign → List UInt8
  | .none => []
  | .plus => [0x2b]
  | .minus => [0x2d]

/-- A number. -/
structure Number where
  negative : Bool
  whole : Digits
  /-- No leading zero. -/
  canonical : whole.bytes.head? = some 0x30 → whole.bytes.length = 1
  fraction : Option Digits
  /-- The letter of the exponent in upper case or not, its sign and its digits. -/
  exponent : Option (Bool × ExponentSign × Digits)

/-- The text of a number. -/
def Number.text (n : Number) : List UInt8 :=
  (if n.negative then [0x2d] else []) ++ n.whole.bytes ++
    n.fraction.elim [] (fun d => 0x2e :: d.bytes) ++
      n.exponent.elim [] fun e => (if e.1 then 0x45 else 0x65) :: (e.2.1.text ++ e.2.2.bytes)

/-- A natural number in decimal. -/
def Number.ofNat (n : ℕ) : Number where
  negative := false
  whole := ⟨lit (toString n), lit_toString_ne_nil n, fun _ => isDigit_of_mem_lit_toString⟩
  canonical := by
    intro hzero
    rcases Nat.eq_zero_or_pos n with rfl | hpos
    · rfl
    · exact absurd hzero (head_lit_toString hpos)
  fraction := none
  exponent := none

/-- The text of a natural number is its digits. -/
@[simp] theorem Number.text_ofNat (n : ℕ) : (Number.ofNat n).text = lit (toString n) := by
  simp [text, ofNat]

/-- A hexadecimal digit. -/
structure HexDigit where
  byte : UInt8
  hex : isDigit byte = true ∨ (0x41 ≤ byte ∧ byte ≤ 0x46) ∨ (0x61 ≤ byte ∧ byte ≤ 0x66)

/-- The value of a hexadecimal digit. -/
def HexDigit.value (d : HexDigit) : ℕ :=
  if isDigit d.byte then d.byte.toNat - 0x30
  else if d.byte ≤ 0x46 then d.byte.toNat - 0x37
  else d.byte.toNat - 0x57

/-- The two-letter escapes. -/
inductive ShortEscape
  | quote
  | backslash
  | slash
  | backspace
  | formFeed
  | lineFeed
  | carriageReturn
  | tab
  deriving DecidableEq

/-- The second letter. -/
def ShortEscape.letter : ShortEscape → UInt8
  | .quote => 0x22
  | .backslash => 0x5c
  | .slash => 0x2f
  | .backspace => 0x62
  | .formFeed => 0x66
  | .lineFeed => 0x6e
  | .carriageReturn => 0x72
  | .tab => 0x74

/-- The character that a two-letter escape stands for. -/
def ShortEscape.char : ShortEscape → Char
  | .quote => '"'
  | .backslash => '\\'
  | .slash => '/'
  | .backspace => Char.ofNat 0x08
  | .formFeed => Char.ofNat 0x0c
  | .lineFeed => '\n'
  | .carriageReturn => '\r'
  | .tab => '\t'

/-- A piece of a string. -/
inductive Piece
  /-- A character that stands for itself. -/
  | plain (c : Char) (h : c ≠ '"' ∧ c ≠ '\\' ∧ 0x20 ≤ c.toNat)
  | short (e : ShortEscape)
  /-- The escape of a UTF-16 code unit. -/
  | unit (d₃ d₂ d₁ d₀ : HexDigit)

/-- The text of a piece. -/
def Piece.text : Piece → List UInt8
  | .plain c _ => String.utf8EncodeChar c
  | .short e => [0x5c, e.letter]
  | .unit d₃ d₂ d₁ d₀ => [0x5c, 0x75, d₃.byte, d₂.byte, d₁.byte, d₀.byte]

/-- The text of a string between its quotation marks. -/
def contentText (s : List Piece) : List UInt8 := s.flatMap Piece.text

/-- The text of a string. -/
def stringText (s : List Piece) : List UInt8 := 0x22 :: (contentText s ++ [0x22])

/-- The characters can all stand for themselves. -/
def PlainChars (cs : List Char) : Prop := ∀ c ∈ cs, c ≠ '"' ∧ c ≠ '\\' ∧ 0x20 ≤ c.toNat

instance (cs : List Char) : Decidable (PlainChars cs) := List.decidableBAll _ _

/-- A string of characters that stand for themselves. -/
def plainString (cs : List Char) (h : PlainChars cs) : List Piece :=
  cs.attach.map fun c => .plain c.1 (h c.1 c.2)

/-! ## Values -/

mutual

/-- A value, with the white space and the spelling of its text. -/
inductive Value
  | null
  | bool (b : Bool)
  | number (n : Number)
  | string (s : List Piece)
  | array (inner : Blank) (elements : List Element)
  | object (inner : Blank) (members : List Member)

/-- An element of an array. -/
inductive Element
  | mk (before : Blank) (value : Value) (after : Blank)

/-- A member of an object. -/
inductive Member
  | mk (before : Blank) (name : List Piece) (beforeColon afterColon : Blank) (value : Value)
      (after : Blank)

end

mutual

/-- The text of a value. -/
def Value.text : Value → List UInt8
  | .null => lit "null"
  | .bool b => if b then lit "true" else lit "false"
  | .number n => n.text
  | .string s => stringText s
  | .array inner elements => 0x5b :: (inner.bytes ++ elementsText elements ++ [0x5d])
  | .object inner members => 0x7b :: (inner.bytes ++ membersText members ++ [0x7d])

/-- The text of an element. -/
def Element.text : Element → List UInt8
  | .mk before value after => before.bytes ++ value.text ++ after.bytes

/-- The text of elements with commas between them. -/
def elementsText : List Element → List UInt8
  | [] => []
  | [e] => e.text
  | e :: es => e.text ++ 0x2c :: elementsText es

/-- The text of a member. -/
def Member.text : Member → List UInt8
  | .mk before name beforeColon afterColon value after =>
    before.bytes ++ stringText name ++ beforeColon.bytes ++
      0x3a :: (afterColon.bytes ++ value.text ++ after.bytes)

/-- The text of members with commas between them. -/
def membersText : List Member → List UInt8
  | [] => []
  | [m] => m.text
  | m :: ms => m.text ++ 0x2c :: membersText ms

end

/-- The name of a member. -/
def Member.name : Member → List Piece
  | .mk _ name _ _ _ _ => name

/-- The white space before the colon of a member. -/
def Member.beforeColon : Member → Blank
  | .mk _ _ beforeColon _ _ _ => beforeColon

/-- The white space after the colon of a member. -/
def Member.afterColon : Member → Blank
  | .mk _ _ _ afterColon _ _ => afterColon

/-- The value of a member. -/
def Member.value : Member → Value
  | .mk _ _ _ _ value _ => value

/-- The text of a member from its name on. -/
def Member.fromName : Member → List UInt8
  | .mk _ name beforeColon afterColon value after =>
    stringText name ++ beforeColon.bytes ++ 0x3a :: (afterColon.bytes ++ value.text ++ after.bytes)

/-- A text with an object, whose members are the top-level ones. -/
structure ObjectText where
  before : Blank
  inner : Blank
  members : List Member
  after : Blank

/-- The text itself. -/
def ObjectText.text (o : ObjectText) : List UInt8 :=
  o.before.bytes ++ (Value.object o.inner o.members).text ++ o.after.bytes

/-- The text from the name of a member on; `later` are the members after it. -/
def ObjectText.fromName (o : ObjectText) (m : Member) (later : List Member) : List UInt8 :=
  m.fromName ++ (if later = [] then [] else 0x2c :: membersText later) ++ 0x7d :: o.after.bytes

/-- From the name of a member on there is its colon, and then its value. -/
theorem ObjectText.fromName_eq (o : ObjectText) (m : Member) (later : List Member) :
    ∃ tail, o.fromName m later = stringText m.name ++
      (m.beforeColon.bytes ++ 0x3a :: (m.afterColon.bytes ++ (m.value.text ++ tail))) := by
  obtain ⟨before, name, beforeColon, afterColon, value, after⟩ := m
  refine ⟨after.bytes ++ ((if later = [] then [] else 0x2c :: membersText later) ++
    0x7d :: o.after.bytes), ?_⟩
  simp only [fromName, Member.fromName, Member.name, Member.beforeColon, Member.afterColon,
    Member.value, List.append_assoc, List.cons_append]

/-! ## Texts without white space -/

/-- A text without its white space. -/
def strip (text : List UInt8) : List UInt8 := text.filter fun c => !isSpace c

/-- What is in two parts of a text is in one part or the other. -/
@[simp] theorem strip_append (text rest : List UInt8) :
    strip (text ++ rest) = strip text ++ strip rest :=
  List.filter_append text rest

/-- A character that is no white space is left. -/
theorem strip_cons {c : UInt8} (h : isSpace c = false) (text : List UInt8) :
    strip (c :: text) = c :: strip text :=
  List.filter_cons_of_pos (by simp [h])

/-- Nothing is left of white space. -/
@[simp] theorem Blank.strip_bytes (blank : Blank) : strip blank.bytes = [] := by
  rw [strip, List.filter_eq_nil_iff]
  intro c hc
  rcases blank.blank c hc with rfl | rfl | rfl | rfl <;> decide

/-- The name and the value of a member, as they are spelled. -/
def Member.spelling (m : Member) : List UInt8 × List UInt8 := (contentText m.name, m.value.text)

/-- Members with these names and values, without white space. -/
def compactMembers (spellings : List (List UInt8 × List UInt8)) : List UInt8 :=
  [0x2c].intercalate (spellings.map fun s => 0x22 :: (s.1 ++ 0x22 :: 0x3a :: s.2))

/-- There is no white space in the name and the value of the member. -/
def Member.Unspaced (m : Member) : Prop :=
  strip m.spelling.1 = m.spelling.1 ∧ strip m.spelling.2 = m.spelling.2

/-- The name and the value are left of a member that has no white space in them. -/
theorem Member.Unspaced.strip_text {m : Member} (h : m.Unspaced) :
    strip m.text = 0x22 :: (m.spelling.1 ++ 0x22 :: 0x3a :: m.spelling.2) := by
  obtain ⟨hname, hvalue⟩ := h
  obtain ⟨before, name, beforeColon, afterColon, value, after⟩ := m
  simp only [spelling, Member.name, Member.value] at hname hvalue ⊢
  have hquote : isSpace 0x22 = false := by decide
  have hcolon : isSpace 0x3a = false := by decide
  simp [Member.text, stringText, strip_cons hquote, strip_cons hcolon, hname, hvalue]

/-- The names and the values are left of members that have no white space in them. -/
theorem strip_membersText {ms : List Member} (h : ∀ m ∈ ms, m.Unspaced) :
    strip (membersText ms) = compactMembers (ms.map Member.spelling) := by
  have hcomma : isSpace 0x2c = false := by decide
  induction ms with
  | nil => rfl
  | cons m ms ih =>
    obtain ⟨hm, hms⟩ := List.forall_mem_cons.mp h
    cases ms with
    | nil => simp [membersText, compactMembers, hm.strip_text]
    | cons m' ms =>
      have hrest := ih hms
      simp only [compactMembers, List.map_cons] at hrest ⊢
      simp [membersText, strip_cons hcomma, hrest, hm.strip_text]

/-- The members are left of the text of an object, and its braces. -/
theorem ObjectText.strip_text {o : ObjectText} (h : ∀ m ∈ o.members, m.Unspaced) :
    strip o.text = 0x7b :: (compactMembers (o.members.map Member.spelling) ++ [0x7d]) := by
  have hopen : isSpace 0x7b = false := by decide
  have hclose : isSpace 0x7d = false := by decide
  simp [ObjectText.text, Value.text, strip_cons hopen, strip_cons hclose, strip_membersText h]

/-! ## What a string denotes -/

/-- The code unit of four hexadecimal digits. -/
def codeUnit (d₃ d₂ d₁ d₀ : HexDigit) : ℕ :=
  4096 * d₃.value + 256 * d₂.value + 16 * d₁.value + d₀.value

/-- The code unit begins a surrogate pair. -/
def IsHigh (u : ℕ) : Prop := 0xd800 ≤ u ∧ u < 0xdc00

/-- The code unit ends a surrogate pair. -/
def IsLow (u : ℕ) : Prop := 0xdc00 ≤ u ∧ u < 0xe000

instance (u : ℕ) : Decidable (IsHigh u) := inferInstanceAs (Decidable (_ ∧ _))

instance (u : ℕ) : Decidable (IsLow u) := inferInstanceAs (Decidable (_ ∧ _))

/-- The character of a surrogate pair. -/
def pairChar (high low : ℕ) : Char :=
  Char.ofNat (0x10000 + (high - 0xd800) * 0x400 + (low - 0xdc00))

/-- The string denotes these characters. Surrogates that are not paired denote none. -/
inductive Denotes : List Piece → List Char → Prop
  | nil : Denotes [] []
  | plain {c : Char} (h : c ≠ '"' ∧ c ≠ '\\' ∧ 0x20 ≤ c.toNat) {s : List Piece} {cs : List Char} :
      Denotes s cs → Denotes (.plain c h :: s) (c :: cs)
  | short (e : ShortEscape) {s : List Piece} {cs : List Char} :
      Denotes s cs → Denotes (.short e :: s) (e.char :: cs)
  | unit {d₃ d₂ d₁ d₀ : HexDigit} (hhigh : ¬ IsHigh (codeUnit d₃ d₂ d₁ d₀))
      (hlow : ¬ IsLow (codeUnit d₃ d₂ d₁ d₀)) {s : List Piece} {cs : List Char} :
      Denotes s cs → Denotes (.unit d₃ d₂ d₁ d₀ :: s) (Char.ofNat (codeUnit d₃ d₂ d₁ d₀) :: cs)
  | pair {d₃ d₂ d₁ d₀ e₃ e₂ e₁ e₀ : HexDigit} (hhigh : IsHigh (codeUnit d₃ d₂ d₁ d₀))
      (hlow : IsLow (codeUnit e₃ e₂ e₁ e₀)) {s : List Piece} {cs : List Char} :
      Denotes s cs → Denotes (.unit d₃ d₂ d₁ d₀ :: .unit e₃ e₂ e₁ e₀ :: s)
        (pairChar (codeUnit d₃ d₂ d₁ d₀) (codeUnit e₃ e₂ e₁ e₀) :: cs)

/-- The bytes of characters. -/
def utf8 (cs : List Char) : List UInt8 := cs.flatMap String.utf8EncodeChar

/-- The piece stands for itself. -/
def Piece.isPlain : Piece → Bool
  | .plain _ _ => true
  | .short _ | .unit _ _ _ _ => false

/-- The number of escapes in a string. -/
def escapes (s : List Piece) : ℕ := s.countP fun p => !p.isPlain

/-! ## What a text tells of the characters -/

/-- Only the quotation mark has the byte of a quotation mark. -/
theorem quote_notMem_utf8EncodeChar {c : Char} (h : c ≠ '"') :
    0x22 ∉ String.utf8EncodeChar c := by
  -- The bytes of longer characters all have their highest bit set.
  have hhigh : ∀ x m : UInt8, 0x80 ≤ m.toNat → (0x22 : UInt8) ≠ x ||| m := by
    intro x m hm heq
    have hor : m.toNat ≤ (x ||| m).toNat := by
      rw [UInt8.toNat_or]
      exact Nat.right_le_or
    rw [← heq] at hor
    exact absurd (Nat.le_trans hm hor) (by decide)
  rcases Char.utf8Size_eq c with hsize | hsize | hsize | hsize
  · rw [String.utf8EncodeChar_eq_singleton hsize, List.mem_singleton]
    have hascii : c.val.toNat ≤ 127 := UInt32.le_iff_toNat_le.mp (Char.utf8Size_eq_one_iff.mp hsize)
    intro heq
    apply h
    apply Char.ext
    apply UInt32.toNat_inj.mp
    have hbyte := congrArg UInt8.toNat heq
    rw [UInt32.toNat_toUInt8] at hbyte
    have hquote : '"'.val.toNat = 34 := rfl
    have hlit : (0x22 : UInt8).toNat = 34 := rfl
    omega
  · rw [String.utf8EncodeChar_eq_cons_cons hsize]
    simp only [List.mem_cons, List.not_mem_nil, or_false, not_or]
    exact ⟨hhigh _ _ (by decide), hhigh _ _ (by decide)⟩
  · rw [String.utf8EncodeChar_eq_cons_cons_cons hsize]
    simp only [List.mem_cons, List.not_mem_nil, or_false, not_or]
    exact ⟨hhigh _ _ (by decide), hhigh _ _ (by decide), hhigh _ _ (by decide)⟩
  · rw [String.utf8EncodeChar_eq_cons_cons_cons_cons hsize]
    simp only [List.mem_cons, List.not_mem_nil, or_false, not_or]
    exact ⟨hhigh _ _ (by decide), hhigh _ _ (by decide), hhigh _ _ (by decide),
      hhigh _ _ (by decide)⟩

/-- The character of a two-letter escape has one byte. -/
theorem ShortEscape.utf8Size_char (e : ShortEscape) : e.char.utf8Size = 1 := by
  cases e <;> decide

/-- Every escape is longer than what it denotes, and no piece is shorter. -/
theorem Denotes.length_add_escapes_le {s : List Piece} {cs : List Char} (h : Denotes s cs) :
    (utf8 cs).length + escapes s ≤ (contentText s).length := by
  have hcons : ∀ (p : Piece) s, (contentText (p :: s)).length = p.text.length +
      (contentText s).length := by simp [contentText]
  have hchar : ∀ (c : Char) cs, (utf8 (c :: cs)).length = c.utf8Size + (utf8 cs).length := by
    simp [utf8]
  have hplain : ∀ (p : Piece) s, p.isPlain = true → escapes (p :: s) = escapes s := by
    simp +contextual [escapes]
  have hescape : ∀ (p : Piece) s, p.isPlain = false → escapes (p :: s) = escapes s + 1 := by
    simp +contextual [escapes]
  induction h with
  | nil => exact Nat.le_refl 0
  | @plain c hc s cs _ ih =>
    have hlength : (Piece.plain c hc).text.length = c.utf8Size := String.length_utf8EncodeChar c
    rw [hcons, hchar, hplain _ _ rfl, hlength]
    omega
  | @short e s cs _ ih =>
    have hsize := e.utf8Size_char
    have hlength : (Piece.short e).text.length = 2 := rfl
    rw [hcons, hchar, hescape _ _ rfl, hlength]
    omega
  | @unit d₃ d₂ d₁ d₀ _ _ s cs _ ih =>
    have hsize := Char.utf8Size_le_four (Char.ofNat (codeUnit d₃ d₂ d₁ d₀))
    have hlength : (Piece.unit d₃ d₂ d₁ d₀).text.length = 6 := rfl
    rw [hcons, hchar, hescape _ _ rfl, hlength]
    omega
  | @pair d₃ d₂ d₁ d₀ e₃ e₂ e₁ e₀ _ _ s cs _ ih =>
    have hsize := Char.utf8Size_le_four
      (pairChar (codeUnit d₃ d₂ d₁ d₀) (codeUnit e₃ e₂ e₁ e₀))
    have hhigh : (Piece.unit d₃ d₂ d₁ d₀).text.length = 6 := rfl
    have hlow : (Piece.unit e₃ e₂ e₁ e₀).text.length = 6 := rfl
    rw [hcons, hcons, hchar, hescape _ _ rfl, hescape _ _ rfl, hhigh, hlow]
    omega

/-- The quotation mark that an escape stands for is in what the string denotes. -/
theorem Denotes.quote_mem {s : List Piece} {cs : List Char} (h : Denotes s cs)
    (hquote : .short .quote ∈ s) : 0x22 ∈ utf8 cs := by
  induction h with
  | nil => cases hquote
  | plain hc _ ih =>
    rcases List.mem_cons.mp hquote with hfirst | hrest
    · cases hfirst
    · exact List.mem_append_right _ (ih hrest)
  | short e _ ih =>
    rcases List.mem_cons.mp hquote with hfirst | hrest
    · obtain rfl : ShortEscape.quote = e := Piece.short.inj hfirst
      exact List.mem_append_left _ (by decide)
    · exact List.mem_append_right _ (ih hrest)
  | unit _ _ _ ih =>
    rcases List.mem_cons.mp hquote with hfirst | hrest
    · cases hfirst
    · exact List.mem_append_right _ (ih hrest)
  | pair _ _ _ ih =>
    simp only [List.mem_cons, reduceCtorEq, false_or] at hquote
    exact List.mem_append_right _ (ih hquote)

/-- Without an escape for it there is no quotation mark in the text of a string. -/
theorem quote_notMem_contentText {s : List Piece} (h : .short .quote ∉ s) :
    0x22 ∉ contentText s := by
  have hdigit : ∀ d : HexDigit, d.byte ≠ 0x22 := by
    rintro ⟨byte, hhex⟩ rfl
    exact absurd hhex (by decide)
  intro hmem
  obtain ⟨p, hp, hbyte⟩ := List.mem_flatMap.mp hmem
  cases p with
  | plain c hc => exact quote_notMem_utf8EncodeChar hc.1 hbyte
  | short e =>
    have hletter : e = .quote := by
      cases e <;> first | rfl | exact absurd hbyte (by decide)
    exact h (hletter ▸ hp)
  | unit d₃ d₂ d₁ d₀ =>
    simp only [Piece.text, List.mem_cons, List.not_mem_nil, or_false] at hbyte
    rcases hbyte with hbyte | hbyte | hbyte | hbyte | hbyte | hbyte
    · exact absurd hbyte (by decide)
    · exact absurd hbyte (by decide)
    · exact hdigit _ hbyte.symm
    · exact hdigit _ hbyte.symm
    · exact hdigit _ hbyte.symm
    · exact hdigit _ hbyte.symm

/-- Without a backslash in the text there are no escapes. -/
theorem escapes_of_backslash_notMem {s : List Piece} (h : 0x5c ∉ contentText s) :
    escapes s = 0 := by
  rw [escapes, List.countP_eq_zero]
  intro p hp hescape
  apply h
  apply List.mem_flatMap.mpr ⟨p, hp, ?_⟩
  cases p with
  | plain c hc => cases hescape
  | short e => exact List.mem_cons_self
  | unit d₃ d₂ d₁ d₀ => exact List.mem_cons_self

/-- A string without escapes denotes its own text. -/
theorem denotes_of_plain {s : List Piece} (h : escapes s = 0) :
    ∃ cs, Denotes s cs ∧ utf8 cs = contentText s := by
  induction s with
  | nil => exact ⟨[], .nil, rfl⟩
  | cons p s ih =>
    cases p with
    | plain c hc =>
      obtain ⟨cs, hcs, htext⟩ := ih (by simpa [escapes, Piece.isPlain] using h)
      exact ⟨c :: cs, .plain hc hcs, by simpa [utf8, contentText, Piece.text] using htext⟩
    | short e => simp [escapes, Piece.isPlain] at h
    | unit d₃ d₂ d₁ d₀ => simp [escapes, Piece.isPlain] at h

/-- A string without escapes denotes nothing else. -/
theorem Denotes.utf8_eq_of_plain {s : List Piece} {cs : List Char} (h : Denotes s cs)
    (hplain : escapes s = 0) : utf8 cs = contentText s := by
  induction h with
  | nil => rfl
  | plain hc _ ih =>
    have htext := ih (by simpa [escapes, Piece.isPlain] using hplain)
    simpa [utf8, contentText, Piece.text] using htext
  | short e _ ih => simp [escapes, Piece.isPlain] at hplain
  | unit _ _ _ ih => simp [escapes, Piece.isPlain] at hplain
  | pair _ _ _ ih => simp [escapes, Piece.isPlain] at hplain

/-- Every character has at least one byte. -/
theorem length_le_utf8 (cs : List Char) : cs.length ≤ (utf8 cs).length := by
  induction cs with
  | nil => exact Nat.le_refl 0
  | cons c cs ih =>
    have hpos := c.utf8Size_pos
    have hcons : (utf8 (c :: cs)).length = c.utf8Size + (utf8 cs).length := by simp [utf8]
    rw [hcons, List.length_cons]
    omega

/-! ## Reading up to a quotation mark -/

/-- The text before the first quotation mark, an escaped one included. -/
def beforeQuote (content : List UInt8) : List UInt8 := content.takeWhile (· ≠ 0x22)

/-- A text without quotation marks is read as a whole. -/
theorem beforeQuote_eq_self {content : List UInt8} (h : 0x22 ∉ content) :
    beforeQuote content = content := by
  rw [beforeQuote, List.takeWhile_eq_self_iff]
  intro c hc
  rw [decide_eq_true_eq]
  rintro rfl
  exact h hc

/-- What is read has no quotation mark. -/
theorem quote_notMem_beforeQuote (content : List UInt8) : 0x22 ∉ beforeQuote content := by
  intro h
  have hne := List.mem_takeWhile_imp h
  simp at hne

/-- In the text of a string, what is read ends at a quotation mark. -/
theorem exists_beforeQuote (content rest : List UInt8) :
    ∃ rest', content ++ 0x22 :: rest = beforeQuote content ++ 0x22 :: rest' := by
  induction content with
  | nil => exact ⟨rest, rfl⟩
  | cons c content ih =>
    by_cases hc : c = 0x22
    · subst hc
      exact ⟨content ++ 0x22 :: rest, by simp [beforeQuote]⟩
    · obtain ⟨rest', h⟩ := ih
      refine ⟨rest', ?_⟩
      have hcons : beforeQuote (c :: content) = c :: beforeQuote content :=
        List.takeWhile_cons_of_pos (by simpa using hc)
      rw [hcons, List.cons_append, List.cons_append, h]

/-- A string without escapes is read as a whole. -/
theorem beforeQuote_of_plain {s : List Piece} (h : escapes s = 0) :
    beforeQuote (contentText s) = contentText s := by
  apply beforeQuote_eq_self
  apply quote_notMem_contentText
  intro hquote
  have hplain := List.countP_eq_zero.mp h _ hquote
  exact hplain rfl

/-- **Only a string without escapes reads as what it denotes.** An escaped quotation
mark ends the text that is read, and any other escape is longer than its character. -/
theorem Denotes.plain_of_beforeQuote {s : List Piece} {cs : List Char} (h : Denotes s cs)
    (hread : utf8 cs = beforeQuote (contentText s)) : escapes s = 0 := by
  by_cases hquote : .short .quote ∈ s
  · have hmem := h.quote_mem hquote
    rw [hread] at hmem
    exact absurd hmem (quote_notMem_beforeQuote _)
  · rw [beforeQuote_eq_self (quote_notMem_contentText hquote)] at hread
    have hlength := h.length_add_escapes_le
    rw [hread] at hlength
    omega

/-! ## The first byte of a value -/

/-- A number begins with its sign or with a digit. -/
theorem Number.text_head (n : Number) :
    ∃ c rest, n.text = c :: rest ∧ c ≠ 0x22 ∧ isSpace c = false := by
  obtain ⟨negative, ⟨digits, hne, hdigits⟩, canonical, fraction, exponent⟩ := n
  cases negative with
  | true => exact ⟨0x2d, _, rfl, by decide, by decide⟩
  | false =>
    cases digits with
    | nil => exact absurd rfl hne
    | cons c digits =>
      have hdigit := hdigits c (by simp)
      refine ⟨c, _, rfl, ?_, ?_⟩
      · rintro rfl
        exact absurd hdigit (by decide)
      · exact (isSpace_of_isDigit hdigit).1

/-- A value begins with a quotation mark exactly when it is a string, and never with
white space. -/
theorem Value.text_head (v : Value) :
    ∃ c rest, v.text = c :: rest ∧ (c = 0x22 ↔ ∃ s, v = .string s) ∧ isSpace c = false := by
  cases v with
  | null => exact ⟨0x6e, lit "ull", by simp only [text]; rfl, by simp, by decide⟩
  | bool b =>
    cases b with
    | true => exact ⟨0x74, lit "rue", by simp only [text]; rfl, by simp, by decide⟩
    | false => exact ⟨0x66, lit "alse", by simp only [text]; rfl, by simp, by decide⟩
  | number n =>
    obtain ⟨c, rest, htext, hc⟩ := n.text_head
    refine ⟨c, rest, by simp only [text, htext], by simp [hc.1], hc.2⟩
  | string s => exact ⟨0x22, contentText s ++ [0x22], by simp only [text, stringText], by simp,
      by decide⟩
  | array inner elements => exact ⟨0x5b, _, by simp only [text]; rfl, by simp, by decide⟩
  | object inner members => exact ⟨0x7b, _, by simp only [text]; rfl, by simp, by decide⟩

end JsonText
