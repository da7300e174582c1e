import LedMatrix.Lib.CText
import LedMatrix.Lib.Mealy

/-!
# Constants declared in C source text

A text is read as C reads it: character by character into words and punctuation, without
its comments; then line by line, with its directives carried out; and what is left is read
as declarations of integer constants and of arrays of them. Character constants, strings
and lines continued by a backslash are not read, nor are included files. A text is not read
at all if it has other directives than those below, or a macro that stands for something.
-/

namespace CSource

/-! ## Words and punctuation -/

/-- A token, or the end of a line. Numbers are words. -/
inductive Token where
  | word (letters : List Char)
  | punct (c : Char)
  | newline
deriving DecidableEq

/-- Letters of words. -/
def isWordChar (c : Char) : Bool := c.isAlphanum || c == '_'

/-- Where a reader of a text is: between words, in a word, behind a slash, in a comment,
behind a star in a comment, or in a comment that goes on to the end of its line. -/
inductive Mode where
  | code
  | word (letters : List Char)
  | slash
  | comment
  | star
  | line
deriving DecidableEq

/-- What a character begins between words. -/
def beginAt (c : Char) : Mode × List Token :=
  if isWordChar c then (.word [c], [])
  else if c = '/' then (.slash, [])
  else if c = '\n' then (.code, [.newline])
  else if c.isWhitespace then (.code, [])
  else (.code, [.punct c])

/-- The next character of a text, with the tokens that it completes. -/
def read : Mode → Char → Mode × List Token
  | .code, c => beginAt c
  | .word letters, c =>
    if isWordChar c then (.word (letters ++ [c]), [])
    else ((beginAt c).1, .word letters :: (beginAt c).2)
  | .slash, c =>
    if c = '*' then (.comment, [])
    else if c = '/' then (.line, [])
    else ((beginAt c).1, .punct '/' :: (beginAt c).2)
  | .comment, c => (if c = '*' then .star else .comment, [])
  | .star, c => (if c = '/' then .code else if c = '*' then .star else .comment, [])
  | .line, c => if c = '\n' then (.code, [.newline]) else (.line, [])

/-- The tokens completed by a text that is read from a mode. -/
def tokensFrom (m : Mode) (text : List Char) : List Token :=
  (Mealy.outputs read m text).flatten

/-- The tokens of a text over all its lines. -/
def joinLines (ts : List Token) : List Token := ts.filter fun t => t ≠ .newline

/-- A text that begins and ends between words has these tokens, over all its lines. -/
def Lexes (text : List Char) (ts : List Token) : Prop :=
  Mealy.final read .code text = .code ∧ joinLines (tokensFrom .code text) = ts

instance (text : List Char) (ts : List Token) : Decidable (Lexes text ts) :=
  inferInstanceAs (Decidable (_ ∧ _))

example : Lexes "/* a */ x1 =\n{0x2a}; // b\n".toList
    [.word "x1".toList, .punct '=', .punct '\x7b', .word "0x2a".toList, .punct '\x7d',
      .punct ';'] := by decide

/-- The tokens of two parts are joined one after another. -/
@[simp] theorem joinLines_append (ts us : List Token) :
    joinLines (ts ++ us) = joinLines ts ++ joinLines us :=
  List.filter_append ts us

/-- The tokens of two parts of a text are completed one after another. -/
theorem tokensFrom_append (m : Mode) (text rest : List Char) :
    tokensFrom m (text ++ rest) =
      tokensFrom m text ++ tokensFrom (Mealy.final read m text) rest := by
  simp [tokensFrom, Mealy.outputs, Mealy.run_append]

/-- Texts that end between words lex one after another. -/
theorem Lexes.append {text rest : List Char} {ts us : List Token} (h : Lexes text ts)
    (hrest : Lexes rest us) : Lexes (text ++ rest) (ts ++ us) := by
  constructor
  · rw [Mealy.final_append, h.1, hrest.1]
  · rw [tokensFrom_append, h.1, joinLines_append, h.2, hrest.2]

/-- The empty text has no tokens. -/
theorem lexes_nil : Lexes [] [] := ⟨rfl, rfl⟩

/-! ## Comments -/

/-- A comment goes on up to its first star. -/
theorem read_comment {body : List Char} (h : '*' ∉ body) :
    Mealy.final read .comment body = .comment ∧ tokensFrom .comment body = [] := by
  induction body with
  | nil => exact ⟨rfl, rfl⟩
  | cons c body ih =>
    obtain ⟨hc, hbody⟩ := not_or.mp (mt List.mem_cons.mpr h)
    have hread : read .comment c = (.comment, []) := by simp [read, Ne.symm hc]
    obtain ⟨hfinal, htokens⟩ := ih hbody
    constructor
    · rw [Mealy.final_cons, hread, hfinal]
    · unfold tokensFrom at htokens ⊢
      rw [Mealy.outputs_cons, hread, List.flatten_cons, htokens, List.append_nil]

/-- A comment without stars has no tokens. -/
theorem lexes_comment {body : List Char} (h : '*' ∉ body) :
    Lexes ("/*".toList ++ body ++ "*/".toList) [] := by
  obtain ⟨hfinal, htokens⟩ := read_comment h
  have hopen : Mealy.final read .code "/*".toList = .comment := rfl
  constructor
  · rw [Mealy.final_append, Mealy.final_append, hopen, hfinal]
    rfl
  · rw [tokensFrom_append, tokensFrom_append, Mealy.final_append, hopen, hfinal, htokens]
    rfl

/-! ## Words -/

/-- After this character the reader is between words. -/
def Ends (c : Char) : Prop := (beginAt c).1 = .code

instance (c : Char) : Decidable (Ends c) := inferInstanceAs (Decidable (_ = _))

/-- A text has these tokens whatever character ends it. -/
def LexesBefore (text : List Char) (ts : List Token) : Prop :=
  ∀ c, Ends c → Lexes (text ++ [c]) (ts ++ joinLines (beginAt c).2)

/-- A word goes on as long as there are letters. -/
theorem read_word {letters w : List Char} (h : ∀ c ∈ w, isWordChar c = true) :
    Mealy.final read (.word letters) w = .word (letters ++ w) ∧
      tokensFrom (.word letters) w = [] := by
  induction w generalizing letters with
  | nil => simp [Mealy.final, tokensFrom, Mealy.outputs]
  | cons c w ih =>
    obtain ⟨hc, hw⟩ := List.forall_mem_cons.mp h
    have hread : read (.word letters) c = (.word (letters ++ [c]), []) := by simp [read, hc]
    obtain ⟨hfinal, htokens⟩ := ih hw
    constructor
    · rw [Mealy.final_cons, hread, hfinal, List.append_assoc, List.singleton_append]
    · unfold tokensFrom at htokens ⊢
      rw [Mealy.outputs_cons, hread, List.flatten_cons, htokens, List.append_nil]

/-- A word has no letter that ends it. -/
theorem Ends.not_isWordChar {c : Char} (h : Ends c) : isWordChar c = false := by
  unfold Ends beginAt at h
  split_ifs at h
  all_goals simp_all

/-- A word, before whatever ends it. -/
theorem lexesBefore_word {w : List Char} (hne : w ≠ []) (h : ∀ c ∈ w, isWordChar c = true) :
    LexesBefore w [.word w] := by
  intro stop hstop
  cases w with
  | nil => exact absurd rfl hne
  | cons c w =>
    obtain ⟨hc, hw⟩ := List.forall_mem_cons.mp h
    have hfirst : read .code c = (.word [c], []) := by simp [read, beginAt, hc]
    have hlast : read (.word (c :: w)) stop = (.code, .word (c :: w) :: (beginAt stop).2) := by
      simp only [read, hstop.not_isWordChar, Bool.false_eq_true, if_false]
      rw [show (beginAt stop).1 = .code from hstop]
    obtain ⟨hfinal, htokens⟩ := read_word hw
    constructor
    · rw [List.cons_append, Mealy.final_cons, hfirst, Mealy.final_concat, hfinal]
      exact congrArg Prod.fst hlast
    · have hend : tokensFrom (.word (c :: w)) [stop] = .word (c :: w) :: (beginAt stop).2 := by
        simp [tokensFrom, Mealy.outputs, hlast]
      have hall : tokensFrom .code (c :: (w ++ [stop])) = .word (c :: w) :: (beginAt stop).2 := by
        unfold tokensFrom
        rw [Mealy.outputs_cons, hfirst, List.flatten_cons, List.nil_append]
        change tokensFrom (.word [c]) (w ++ [stop]) = _
        rw [tokensFrom_append, hfinal, htokens, List.nil_append]
        exact hend
      rw [List.cons_append, hall]
      rfl

/-- Texts are joined by a character that ends them, and by a gap without tokens. -/
theorem lexesBefore_intercalate {α : Type*} {text : α → List Char} {ts : α → List Token}
    (sep : Char) (gap : List Char) (hsep : Ends sep) (hgap : Lexes gap []) {xs : List α}
    (hne : xs ≠ []) (h : ∀ x ∈ xs, LexesBefore (text x) (ts x)) :
    LexesBefore ((sep :: gap).intercalate (xs.map text))
      ((joinLines (beginAt sep).2).intercalate (xs.map ts)) := by
  intro stop hstop
  induction xs with
  | nil => exact absurd rfl hne
  | cons x xs ih =>
    obtain ⟨hx, hxs⟩ := List.forall_mem_cons.mp h
    cases xs with
    | nil => simpa using hx stop hstop
    | cons y ys =>
      have hjoined := ((hx sep hsep).append hgap).append (ih (by simp) hxs)
      simpa using hjoined

/-- A text that ends between words can stand before another. -/
theorem Lexes.before {text rest : List Char} {ts us : List Token} (h : Lexes text ts)
    (hrest : LexesBefore rest us) : LexesBefore (text ++ rest) (ts ++ us) := by
  intro stop hstop
  rw [List.append_assoc, List.append_assoc]
  exact h.append (hrest stop hstop)

/-- Lists joined by a separator are joined as one list. -/
theorem intercalate_append {α : Type*} {sep : List α} {xs ys : List (List α)} (hxs : xs ≠ [])
    (hys : ys ≠ []) :
    sep.intercalate (xs ++ ys) = sep.intercalate xs ++ sep ++ sep.intercalate ys := by
  induction xs with
  | nil => exact absurd rfl hxs
  | cons x xs ih =>
    cases xs with
    | nil =>
      rw [List.singleton_append, List.intercalate_cons_of_ne_nil hys, List.intercalate_singleton]
    | cons x' xs =>
      have hrest := ih (by simp)
      rw [List.cons_append, List.intercalate_cons_of_ne_nil (by simp), hrest,
        List.intercalate_cons_cons]
      simp only [List.append_assoc]

/-- Joining the parts of a list, each joined for itself, joins the list. -/
theorem intercalate_intercalate {α : Type*} {sep : List α} {parts : List (List (List α))}
    (h : [] ∉ parts) :
    sep.intercalate (parts.map sep.intercalate) = sep.intercalate parts.flatten := by
  induction parts with
  | nil => rfl
  | cons part parts ih =>
    obtain ⟨hpart, hparts⟩ := not_or.mp (mt List.mem_cons.mpr h)
    cases parts with
    | nil => simp
    | cons next parts =>
      have hflat : (next :: parts).flatten ≠ [] := by
        rw [List.flatten_cons]
        have hnext : next ≠ [] := fun hnil => hparts (hnil ▸ List.mem_cons_self)
        simp [hnext]
      have hcut : (part :: next :: parts).flatten = part ++ (next :: parts).flatten := rfl
      rw [List.map_cons, List.intercalate_cons_of_ne_nil (by simp), ih hparts, hcut,
        intercalate_append (Ne.symm hpart) hflat]

/-! ## Directives -/

/-- What is known between two lines: the macros defined so far, each of which stands for
nothing, and whether the groups that are open are read, the innermost first. -/
structure Preprocessor where
  macros : List (List Char)
  groups : List Bool
deriving DecidableEq

/-- At the beginning of a text nothing is defined, and no group is open. -/
def Preprocessor.start : Preprocessor := ⟨[], []⟩

/-- Lines are read if all open groups are. -/
def Preprocessor.Active (p : Preprocessor) : Prop := ∀ isRead ∈ p.groups, isRead = true

instance (p : Preprocessor) : Decidable p.Active := List.decidableBAll _ _

/-- A line without its macros. -/
def Preprocessor.expand (p : Preprocessor) (line : List Token) : List Token :=
  line.filter fun t => ∀ name ∈ p.macros, t ≠ .word name

/-- A line is carried out, or passed on if it is no directive. -/
def Preprocessor.line (p : Preprocessor) : List Token → Option (Preprocessor × List Token)
  | [.punct '#', .word directive, .word name] =>
    if directive = "ifndef".toList then
      some ({ p with groups := decide (name ∉ p.macros) :: p.groups }, [])
    else if directive = "ifdef".toList then
      some ({ p with groups := decide (name ∈ p.macros) :: p.groups }, [])
    else if directive = "define".toList then
      some (if p.Active then { p with macros := name :: p.macros } else p, [])
    else none
  | [.punct '#', .word directive] =>
    match p.groups with
    | _ :: groups => if directive = "endif".toList then some ({ p with groups }, []) else none
    | [] => none
  | .punct '#' :: .word directive :: _ =>
    if directive = "include".toList then some (p, []) else none
  | .punct '#' :: _ => none
  | ts => some (p, if p.Active then p.expand ts else [])

/-- The tokens that are left of lines, the first of which has already begun. -/
def Preprocessor.lines (p : Preprocessor) (line : List Token) :
    List Token → Option (Preprocessor × List Token)
  | [] => if line = [] then some (p, []) else none
  | .newline :: ts => do
    let first ← p.line line
    let rest ← first.1.lines [] ts
    some (rest.1, first.2 ++ rest.2)
  | t :: ts => p.lines (line ++ [t]) ts

/-- A text of whole lines leaves these tokens. -/
def Preprocesses (p : Preprocessor) (text : List Char) (p' : Preprocessor) (ts : List Token) :
    Prop :=
  Mealy.final read .code text = .code ∧ p.lines [] (tokensFrom .code text) = some (p', ts)

instance (p : Preprocessor) (text : List Char) (p' : Preprocessor) (ts : List Token) :
    Decidable (Preprocesses p text p' ts) :=
  inferInstanceAs (Decidable (_ ∧ _))

example : Preprocesses .start "#ifndef A\n#define A // a\nx A\n#endif\n#ifdef B\ny\n#endif\n".toList
    ⟨["A".toList], []⟩ [.word "x".toList] := by decide

/-- After whole lines the others are read from where these have led. -/
theorem Preprocessor.lines_append {p p' : Preprocessor} {line ts us : List Token}
    (h : p.lines line ts = some (p', us)) (rest : List Token) :
    p.lines line (ts ++ rest) = (p'.lines [] rest).map fun r => (r.1, us ++ r.2) := by
  induction ts generalizing p line us with
  | nil =>
    simp only [lines, Option.ite_none_right_eq_some] at h
    obtain ⟨rfl, hsame⟩ := h
    obtain ⟨rfl, rfl⟩ := Prod.mk.inj (Option.some.inj hsame)
    simp
  | cons t ts ih =>
    cases t with
    | newline =>
      obtain ⟨⟨p₁, out⟩, hline, hrest⟩ := Option.bind_eq_some_iff.mp h
      obtain ⟨⟨p₂, us'⟩, hlines, hsame⟩ := Option.bind_eq_some_iff.mp hrest
      obtain ⟨rfl, rfl⟩ := Prod.mk.inj (Option.some.inj hsame)
      have hmore := ih hlines
      rw [List.cons_append, lines, hline, Option.bind_eq_bind, Option.bind_some, hmore]
      cases p₂.lines [] rest with
      | none => rfl
      | some r => simp
    | word letters => exact ih h
    | punct c => exact ih h

/-- Texts of whole lines are carried out one after another. -/
theorem Preprocesses.append {p p' p'' : Preprocessor} {text rest : List Char} {ts us : List Token}
    (h : Preprocesses p text p' ts) (hrest : Preprocesses p' rest p'' us) :
    Preprocesses p (text ++ rest) p'' (ts ++ us) := by
  constructor
  · rw [Mealy.final_append, h.1, hrest.1]
  · rw [tokensFrom_append, h.1, Preprocessor.lines_append h.2, hrest.2]
    rfl

/-- The empty text changes nothing. -/
theorem preprocesses_nil (p : Preprocessor) : Preprocesses p [] p [] := ⟨rfl, rfl⟩

/-- The texts of the elements of a list are carried out one after another, if each of them
leaves what is known as it was. -/
theorem preprocesses_flatMap {α : Type*} {p : Preprocessor} {text : α → List Char}
    {ts : α → List Token} {xs : List α} (h : ∀ x ∈ xs, Preprocesses p (text x) p (ts x)) :
    Preprocesses p (xs.flatMap text) p (xs.flatMap ts) := by
  induction xs with
  | nil => exact preprocesses_nil p
  | cons x xs ih =>
    obtain ⟨hx, hxs⟩ := List.forall_mem_cons.mp h
    exact hx.append (ih hxs)

/-- A line without a number sign and without macros is passed on. -/
theorem Preprocessor.line_of_plain {p : Preprocessor} (hactive : p.Active) {line : List Token}
    (hsign : .punct '#' ∉ line) (hmacros : ∀ name ∈ p.macros, .word name ∉ line) :
    p.line line = some (p, line) := by
  have hexpand : p.expand line = line := by
    rw [expand, List.filter_eq_self]
    intro t ht
    rw [decide_eq_true_iff]
    rintro name hname rfl
    exact hmacros name hname ht
  unfold Preprocessor.line
  split
  case h_5 => rw [if_pos hactive, hexpand]
  all_goals exact absurd List.mem_cons_self hsign

/-- Lines without number signs and without macros are passed on. -/
theorem Preprocessor.lines_of_plain {p : Preprocessor} (hactive : p.Active)
    {line ts : List Token} (hsign : .punct '#' ∉ line ++ ts)
    (hmacros : ∀ name ∈ p.macros, .word name ∉ line ++ ts) :
    p.lines line (ts ++ [.newline]) = some (p, line ++ joinLines ts) := by
  induction ts generalizing line with
  | nil =>
    rw [List.append_nil] at hsign hmacros
    simp [lines, line_of_plain hactive hsign hmacros, joinLines]
  | cons t ts ih =>
    by_cases ht : t = .newline
    · subst ht
      have hfirst : p.line line = some (p, line) := line_of_plain hactive
        (fun hmem => hsign (List.mem_append_left _ hmem))
        fun name hname hmem => hmacros name hname (List.mem_append_left _ hmem)
      have hrest : p.lines [] (ts ++ [.newline]) = some (p, [] ++ joinLines ts) :=
        ih (by simp_all) (by simp_all)
      rw [List.cons_append, lines, hfirst, Option.bind_eq_bind, Option.bind_some, hrest]
      simp [joinLines]
    · have hstep : p.lines line (t :: ts ++ [.newline]) =
          p.lines (line ++ [t]) (ts ++ [.newline]) := by
        cases t with
        | newline => exact absurd rfl ht
        | word letters => rfl
        | punct c => rfl
      have hcut : line ++ t :: ts = line ++ [t] ++ ts := by simp
      rw [hcut] at hsign hmacros
      rw [hstep, ih hsign hmacros]
      simp [joinLines, ht]

/-- A text without directives and macros leaves its tokens. -/
theorem Lexes.preprocesses {p : Preprocessor} (hactive : p.Active) {text : List Char}
    {ts : List Token} (h : Lexes text ts) (hsign : .punct '#' ∉ ts)
    (hmacros : ∀ name ∈ p.macros, .word name ∉ ts) : Preprocesses p (text ++ ['\n']) p ts := by
  have hmem : ∀ {t : Token}, t ≠ .newline → t ∉ ts → t ∉ tokensFrom .code text := by
    intro t ht hts hmem
    exact hts (h.2 ▸ List.mem_filter.mpr ⟨hmem, by simpa using ht⟩)
  constructor
  · rw [Mealy.final_concat, h.1]
    rfl
  · have hend : tokensFrom .code ['\n'] = [.newline] := rfl
    rw [tokensFrom_append, h.1, hend, Preprocessor.lines_of_plain hactive, List.nil_append, h.2]
    · exact hmem (by simp) hsign
    · intro name hname
      exact hmem (by simp) (hmacros name hname)

/-! ## Numbers -/

/-- The value of a digit. -/
def digit (base : ℕ) (c : Char) : Option ℕ :=
  (List.range base).find? fun d => Nat.digitChar d == c.toLower

/-- The value of digits. -/
def digitsValue (base : ℕ) (ds : List Char) : Option ℕ :=
  ds.foldlM (fun n c => (digit base c).map fun d => base * n + d) 0

/-- The value of an integer constant: hexadecimal, octal or decimal. -/
def number : List Char → Option ℕ
  | '0' :: 'x' :: ds => if ds = [] then none else digitsValue 16 ds
  | '0' :: ds => digitsValue 8 ds
  | ds => if ds = [] then none else digitsValue 10 ds

/-- A decimal digit is read back as its value. -/
theorem digit_digitChar {d : ℕ} (h : d < 10) : digit 10 (Nat.digitChar d) = some d := by
  have hall : ∀ d : Fin 10, digit 10 (Nat.digitChar d) = some d.val := by decide
  exact hall ⟨d, h⟩

/-- The digits of a decimal number are read back as the number. -/
theorem digitsValue_toDigits (n : ℕ) : digitsValue 10 (Nat.toDigits 10 n) = some n := by
  induction n using Nat.strongRecOn with
  | ind n ih =>
    by_cases hn : n < 10
    · simp [Nat.toDigits_of_lt_base hn, digitsValue, digit_digitChar hn]
    · have hrest := ih (n / 10) (by omega)
      have hlast := digit_digitChar (Nat.mod_lt n (by decide : 10 > 0))
      unfold digitsValue at hrest
      rw [Nat.toDigits_of_base_le (by decide) (by omega), digitsValue, List.foldlM_append, hrest]
      simp [hlast]
      omega

/-- The digits of a number are read as a decimal constant. -/
theorem number_toDigits (n : ℕ) : number (Nat.toDigits 10 n) = some n := by
  rcases Nat.eq_zero_or_pos n with rfl | hpos
  · rfl
  · have hhead := CText.head_toDigits hpos
    have hvalue := digitsValue_toDigits n
    cases hdigits : Nat.toDigits 10 n with
    | nil => exact absurd hdigits Nat.toDigits_ne_nil
    | cons c cs =>
      rw [hdigits] at hhead hvalue
      have hc : c ≠ '0' := fun hc => hhead (congrArg some hc)
      unfold number
      split
      · simp_all
      · simp_all
      · rw [if_neg (List.cons_ne_nil c cs), hvalue]

/-! ## Declarations -/

/-- A constant that a text declares: an array of numbers, or one number. -/
inductive Constant where
  | array (type name : List Char) (values : List ℕ)
  | scalar (type name : List Char) (value : ℕ)
deriving DecidableEq

/-- The numbers of an initialiser, up to the brace that closes it right after the last. -/
def elements : List Token → Option (List ℕ)
  | [.word w, .punct '\x7d'] => (number w).map fun n => [n]
  | .word w :: .punct ',' :: ts => do
    let n ← number w
    let ns ← elements ts
    some (n :: ns)
  | _ => none

/-- The constant that is declared by the tokens before a semicolon. -/
def declaration : List Token → Option Constant
  | .word s :: .word c :: .word type :: .word name :: .punct '[' :: .punct ']' :: .punct '=' ::
      .punct '\x7b' :: ts =>
    if s = "static".toList ∧ c = "const".toList then
      (elements ts).map fun values => .array type name values
    else none
  | [.word s, .word c, .word type, .word name, .punct '=', .word w] =>
    if s = "static".toList ∧ c = "const".toList then
      (number w).map fun value => .scalar type name value
    else none
  | _ => none

/-- The constants that the tokens of a text declare. -/
def declarations (ts : List Token) : Option (List Constant) :=
  let parts := ts.splitOn (.punct ';')
  if parts.getLast? = some [] then parts.dropLast.mapM declaration else none

/-- The constants that a text declares, or none if it is not read as such declarations. -/
def constants (text : List Char) : Option (List Constant) := do
  let left ← Preprocessor.start.lines [] (tokensFrom .code text)
  if Mealy.final read .code text = .code ∧ left.1.groups = [] then declarations left.2 else none

/-- A number that is not the last. -/
theorem elements_cons (w : List Char) (ts : List Token) :
    elements (.word w :: .punct ',' :: ts) =
      (number w).bind fun n => (elements ts).bind fun ns => some (n :: ns) := rfl

/-- The numbers of an initialiser are read back. -/
theorem elements_intercalate {ws : List (List Char)} {ns : List ℕ} (hne : ws ≠ [])
    (h : ws.mapM number = some ns) :
    elements ([Token.punct ','].intercalate (ws.map fun w => [.word w]) ++ [.punct '\x7d']) =
      some ns := by
  induction ws generalizing ns with
  | nil => exact absurd rfl hne
  | cons w ws ih =>
    rw [List.mapM_cons] at h
    obtain ⟨n, hn, hrest⟩ := Option.bind_eq_some_iff.mp h
    obtain ⟨ns', hns', hcons⟩ := Option.bind_eq_some_iff.mp hrest
    obtain rfl := Option.some.inj hcons
    cases ws with
    | nil =>
      obtain rfl := Option.some.inj hns'
      simp [elements, hn]
    | cons v ws =>
      have hread := ih (by simp) hns'
      rw [List.map_cons] at hread
      rw [List.map_cons, List.map_cons, List.intercalate_cons_cons, List.append_assoc,
        List.append_assoc, List.singleton_append, List.singleton_append, elements_cons, hn, hread]
      rfl

/-- Statements are split at their semicolons. -/
theorem splitOn_statements {statements : List (List Token)}
    (h : ∀ ts ∈ statements, .punct ';' ∉ ts) :
    (statements.flatMap fun ts => ts ++ [.punct ';']).splitOn (.punct ';') =
      statements ++ [[]] := by
  induction statements with
  | nil => rfl
  | cons ts statements ih =>
    obtain ⟨hts, hrest⟩ := List.forall_mem_cons.mp h
    rw [List.flatMap_cons, List.append_assoc, List.singleton_append,
      List.splitOn_append_cons_self_of_not_mem hts, ih hrest, List.cons_append]

/-- What is read one by one is read as a list. -/
theorem mapM_map_eq_some {α β γ : Type*} {f : α → β} {g : β → Option γ} {k : α → γ} {xs : List α}
    (h : ∀ x ∈ xs, g (f x) = some (k x)) : (xs.map f).mapM g = some (xs.map k) := by
  induction xs with
  | nil => rfl
  | cons x xs ih =>
    obtain ⟨hx, hxs⟩ := List.forall_mem_cons.mp h
    simp [hx, ih hxs]

/-- Declarations with their semicolons are read one by one. -/
theorem constants_of_preprocesses {α : Type*} {text : List Char} {xs : List α}
    {ts : α → List Token} {value : α → Constant} {macros : List (List Char)}
    (h : Preprocesses .start text ⟨macros, []⟩ (xs.flatMap fun x => ts x ++ [.punct ';']))
    (hsemicolon : ∀ x ∈ xs, .punct ';' ∉ ts x)
    (hread : ∀ x ∈ xs, declaration (ts x) = some (value x)) :
    constants text = some (xs.map value) := by
  have hparts : (xs.flatMap fun x => ts x ++ [.punct ';']).splitOn (.punct ';') =
      xs.map ts ++ [[]] := by
    rw [← splitOn_statements (List.forall_mem_map.mpr hsemicolon), List.flatMap_map]
  rw [constants, h.2, Option.bind_eq_bind, Option.bind_some, if_pos ⟨h.1, rfl⟩, declarations,
    hparts, if_pos List.getLast?_concat, List.dropLast_concat, mapM_map_eq_some hread]

end CSource
