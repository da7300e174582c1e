import LedMatrix.Lib.JsonText
import LedMatrix.McpServer

/-!
# The search for the action

When the parse has decoded nothing, the callback searches the text for the member
`action`. `extract_json_string_value` does not parse: it takes the first occurrence
of the quoted name, the first colon after it, and the bytes up to the next quotation
mark. This file compares it with what the member denotes.
-/

namespace LedMatrix

open CText JsonText

/-- The key that the callback searches for. -/
def actionKey : List UInt8 := lit "\"action\""

/-! ## What the search reads -/

/-- The white space that the search skips after the colon. -/
def skipped (c : UInt8) : Bool := c == 0x20 || c == 0x09 || c == 0x0a

/-- The part of `extract_json_string_value` after the colon. -/
def readValue (afterColon : List UInt8) : Option (List UInt8) :=
  let valueStart := afterColon.dropWhile skipped
  if valueStart.head? ≠ some 0x22 then none
  else do
    let valueStart := valueStart.drop 1
    let valueEnd ← strchr valueStart 0x22
    let valueLen := valueStart.length - valueEnd.length
    if valueBufferSize ≤ valueLen then none
    else some (valueStart.take valueLen)

/-- The search goes on after the first colon after the first occurrence of its key. -/
theorem extractJsonStringValue_eq {json key between rest : List UInt8}
    (hkey : strstr json key = some (key ++ (between ++ 0x3a :: rest))) (hcolon : 0x3a ∉ between) :
    extractJsonStringValue (some json) key = readValue rest := by
  have hrest : strchr ((key ++ (between ++ 0x3a :: rest)).drop key.length) 0x3a =
      some (0x3a :: rest) := by
    rw [List.drop_left]
    exact strchr_append hcolon rest
  simp only [extractJsonStringValue, Option.bind_eq_bind, Option.bind_some, hkey, hrest]
  rfl

/-- Without an occurrence of its key the search finds nothing. -/
theorem extractJsonStringValue_eq_none {json key : List UInt8} (hkey : strstr json key = none) :
    extractJsonStringValue (some json) key = none := by
  simp only [extractJsonStringValue, Option.bind_eq_bind, Option.bind_some, hkey, Option.bind_none]

/-- A value that does not begin with a quotation mark is not read. -/
theorem readValue_of_ne {afterColon rest : List UInt8} {c : UInt8}
    (hstart : afterColon.dropWhile skipped = c :: rest) (hc : c ≠ 0x22) :
    readValue afterColon = none := by
  rw [readValue, hstart]
  exact if_pos (by simpa using hc)

/-- A string is read up to its first quotation mark, if that comes in time. -/
theorem readValue_of_string {afterColon rest : List UInt8} {s : List Piece}
    (hstart : afterColon.dropWhile skipped = stringText s ++ rest) :
    readValue afterColon =
      if valueBufferSize ≤ (beforeQuote (contentText s)).length then none
      else some (beforeQuote (contentText s)) := by
  obtain ⟨rest', hrest⟩ := exists_beforeQuote (contentText s) rest
  have htext : stringText s ++ rest = 0x22 :: (beforeQuote (contentText s) ++ 0x22 :: rest') := by
    rw [stringText, List.cons_append, List.append_assoc, List.singleton_append, hrest]
  have hend := strchr_append (quote_notMem_beforeQuote (contentText s)) rest'
  simp only [readValue, hstart, htext, List.head?_cons, ne_eq, not_true_eq_false, if_false,
    List.drop_succ_cons, List.drop_zero, Option.bind_eq_bind, hend, Option.bind_some]
  simp

/-- Every byte that the search skips is white space. -/
theorem isSpace_of_skipped {c : UInt8} (h : skipped c = true) : isSpace c = true := by
  simp only [skipped, Bool.or_eq_true, beq_iff_eq] at h
  rcases h with (rfl | rfl) | rfl <;> decide

/-- The white space before a value is skipped, unless there is a carriage return in it. -/
theorem dropWhile_skipped (blank : Blank) {c : UInt8} (hc : isSpace c = false)
    (rest : List UInt8) :
    (0x0d ∉ blank.bytes → (blank.bytes ++ c :: rest).dropWhile skipped = c :: rest) ∧
      (0x0d ∈ blank.bytes →
        ∃ rest', (blank.bytes ++ c :: rest).dropWhile skipped = 0x0d :: rest') := by
  have hfirst : ¬ skipped c = true := fun h => by
    rw [isSpace_of_skipped h] at hc
    cases hc
  obtain ⟨bytes, hblank⟩ := blank
  dsimp only
  induction bytes with
  | nil => exact ⟨fun _ => List.dropWhile_cons_of_neg hfirst, fun h => by cases h⟩
  | cons x bytes ih =>
    obtain ⟨hnone, hsome⟩ := ih fun x' hx' => hblank x' (by simp [hx'])
    have hskip : x ≠ 0x0d → skipped x = true := by
      intro hx
      rcases hblank x (by simp) with rfl | rfl | rfl | rfl
      · rfl
      · rfl
      · rfl
      · exact absurd rfl hx
    by_cases hx : x = 0x0d
    · subst hx
      refine ⟨fun h => absurd (by simp) h, fun _ => ⟨bytes ++ c :: rest, ?_⟩⟩
      exact List.dropWhile_cons_of_neg (by decide)
    · rw [List.cons_append, List.dropWhile_cons_of_pos (hskip hx)]
      refine ⟨fun h => hnone (by simp_all), fun h => hsome ?_⟩
      exact (List.mem_cons.mp h).resolve_left (Ne.symm hx)

/-! ## What a member gives -/

/-- The member has a string with fewer than 32 characters as its value; these are
its bytes. -/
def Gives (m : Member) (v : List UInt8) : Prop :=
  ∃ s cs, m.value = .string s ∧ Denotes s cs ∧ cs.length < valueBufferSize ∧ v = utf8 cs

/-- The member is named `action`, in any spelling. -/
def IsAction (m : Member) : Prop := ∃ cs, Denotes m.name cs ∧ utf8 cs = lit "action"

/-- A member with another name, spelled without escapes, is not named `action`. -/
theorem not_isAction {m : Member} (hplain : escapes m.name = 0)
    (hother : contentText m.name ≠ lit "action") : ¬ IsAction m := by
  rintro ⟨cs, hdenotes, hname⟩
  rw [hdenotes.utf8_eq_of_plain hplain] at hname
  exact hother hname

/-- The key is the name `action` spelled without escapes. -/
theorem stringText_eq_actionKey_iff {name : List Piece} :
    stringText name = actionKey ↔ contentText name = lit "action" := by
  have hkey : actionKey = 0x22 :: (lit "action" ++ [0x22]) := by decide
  rw [hkey, stringText, List.cons_inj_right, List.append_left_inj]

/-- The search returns a string exactly when a top-level member named `action` gives it. -/
def FindsMember (o : ObjectText) : Prop :=
  ∀ v, extractJsonStringValue (some o.text) actionKey = some v ↔
    ∃ m ∈ o.members, IsAction m ∧ Gives m v

/-- The value of the member is not a string; or it is a string without escapes and
shorter than the buffer, directly after the colon and white space other than a carriage
return; or it gives nothing, and the search gives up on it. -/
def ReadsRight (m : Member) : Prop :=
  ∀ s, m.value = .string s →
    (0x0d ∉ m.afterColon.bytes ∧ escapes s = 0 ∧ (contentText s).length < valueBufferSize) ∨
      (∀ v, ¬ Gives m v) ∧
        (0x0d ∈ m.afterColon.bytes ∨ valueBufferSize ≤ (beforeQuote (contentText s)).length)

/-- What the search returns when it comes to the member. -/
def readMember (m : Member) : Option (List UInt8) :=
  match m.value with
  | .string s =>
    if 0x0d ∈ m.afterColon.bytes ∨ valueBufferSize ≤ (beforeQuote (contentText s)).length then none
    else some (beforeQuote (contentText s))
  | _ => none

/-- A string is read up to its first quotation mark, if nothing stops the search. -/
theorem readMember_of_string {m : Member} {s : List Piece} (h : m.value = .string s) :
    readMember m =
      if 0x0d ∈ m.afterColon.bytes ∨ valueBufferSize ≤ (beforeQuote (contentText s)).length then
        none
      else some (beforeQuote (contentText s)) := by
  simp only [readMember, h]

/-- A value that is not a string is not read. -/
theorem readMember_of_not_string {m : Member} (h : ∀ s, m.value ≠ .string s) :
    readMember m = none := by
  unfold readMember
  split
  · next s hs => exact absurd hs (h s)
  · rfl

/-- The search returns what the member gives exactly when the member reads right. -/
theorem readMember_eq_some_iff {m : Member} :
    (∀ v, readMember m = some v ↔ Gives m v) ↔ ReadsRight m := by
  constructor
  · intro hread s hvalue
    rw [readMember_of_string hvalue] at hread
    by_cases hfails : 0x0d ∈ m.afterColon.bytes ∨
        valueBufferSize ≤ (beforeQuote (contentText s)).length
    · rw [if_pos hfails] at hread
      exact .inr ⟨fun v hgives => absurd ((hread v).mpr hgives) (by simp), hfails⟩
    · rw [if_neg hfails] at hread
      obtain ⟨s', cs, hvalue', hdenotes, -, htext⟩ := (hread _).mp rfl
      obtain rfl : s = s' := Value.string.inj (hvalue.symm.trans hvalue')
      have hplain := hdenotes.plain_of_beforeQuote htext.symm
      rw [beforeQuote_of_plain hplain] at hfails
      exact .inl ⟨fun h => hfails (.inl h), hplain, by omega⟩
  · intro hright v
    cases hvalue : m.value with
    | string s =>
      rw [readMember_of_string hvalue]
      rcases hright s hvalue with ⟨hcr, hplain, hshort⟩ | ⟨hnone, hfails⟩
      · rw [beforeQuote_of_plain hplain, if_neg (by rintro (h | h); exacts [hcr h, by omega])]
        constructor
        · intro h
          obtain rfl := Option.some.inj h
          obtain ⟨cs, hdenotes, htext⟩ := denotes_of_plain hplain
          have hlength := length_le_utf8 cs
          rw [htext] at hlength
          exact ⟨s, cs, hvalue, hdenotes, by omega, htext.symm⟩
        · rintro ⟨s', cs, hvalue', hdenotes, -, rfl⟩
          obtain rfl : s = s' := Value.string.inj (hvalue.symm.trans hvalue')
          rw [hdenotes.utf8_eq_of_plain hplain]
      · rw [if_pos hfails]
        exact iff_of_false (by simp) (hnone v)
    | _ =>
      rw [readMember_of_not_string (by simp [hvalue])]
      simp [Gives, hvalue]

/-! ## Where the search comes to -/

/-- The search comes to this member: the first occurrence of the key is its name, and
no other top-level member named `action` gives anything else. -/
structure ComesTo (o : ObjectText) (earlier : List Member) (m : Member) (later : List Member) :
    Prop where
  members_eq : o.members = earlier ++ m :: later
  name_eq : stringText m.name = actionKey
  found : strstr o.text actionKey = some (o.fromName m later)
  agree : ∀ m' ∈ earlier ++ later, IsAction m' → ∀ v, Gives m' v → Gives m v

/-- A member whose name is spelled like the key is named `action`. -/
theorem ComesTo.isAction {o : ObjectText} {earlier later : List Member} {m : Member}
    (h : ComesTo o earlier m later) : IsAction m := by
  have hcontent := stringText_eq_actionKey_iff.mp h.name_eq
  have hplain : escapes m.name = 0 := by
    apply escapes_of_backslash_notMem
    rw [hcontent]
    decide
  obtain ⟨cs, hdenotes, htext⟩ := denotes_of_plain hplain
  exact ⟨cs, hdenotes, htext.trans hcontent⟩

/-- The search reads the value of the member that it comes to. -/
theorem ComesTo.extract_eq {o : ObjectText} {earlier later : List Member} {m : Member}
    (h : ComesTo o earlier m later) :
    extractJsonStringValue (some o.text) actionKey = readMember m := by
  obtain ⟨tail, htext⟩ := o.fromName_eq m later
  have hfound := h.found
  rw [htext, h.name_eq] at hfound
  have hcolon : 0x3a ∉ m.beforeColon.bytes := by
    intro hmem
    rcases m.beforeColon.blank _ hmem with h | h | h | h <;> exact absurd h (by decide)
  rw [extractJsonStringValue_eq hfound hcolon]
  obtain ⟨c, rest, hvalue, hquote, hspace⟩ := m.value.text_head
  obtain ⟨hskips, hstops⟩ := dropWhile_skipped m.afterColon hspace (rest ++ tail)
  rw [← List.cons_append, ← hvalue] at hskips hstops
  by_cases hstring : ∃ s, m.value = .string s
  · obtain ⟨s, hs⟩ := hstring
    rw [readMember_of_string hs]
    by_cases hcr : 0x0d ∈ m.afterColon.bytes
    · obtain ⟨rest', hstart⟩ := hstops hcr
      rw [readValue_of_ne hstart (by decide), if_pos (.inl hcr)]
    · have htext : m.value.text = stringText s := by rw [hs, Value.text]
      rw [htext] at hskips ⊢
      rw [readValue_of_string (hskips hcr)]
      simp only [hcr, false_or]
  · rw [readMember_of_not_string fun s hs => hstring ⟨s, hs⟩]
    by_cases hcr : 0x0d ∈ m.afterColon.bytes
    · obtain ⟨rest', hstart⟩ := hstops hcr
      exact readValue_of_ne hstart (by decide)
    · have hstart := hskips hcr
      rw [hvalue, List.cons_append] at hstart ⊢
      exact readValue_of_ne hstart fun h => hstring (hquote.mp h)

/-- Where the search comes to a member, the object gives what this member gives. -/
theorem ComesTo.exists_gives_iff {o : ObjectText} {earlier later : List Member} {m : Member}
    (h : ComesTo o earlier m later) {v : List UInt8} :
    (∃ m' ∈ o.members, IsAction m' ∧ Gives m' v) ↔ Gives m v := by
  constructor
  · rintro ⟨m', hm', haction, hgives⟩
    rw [h.members_eq, List.mem_append, List.mem_cons] at hm'
    rcases hm' with hearlier | rfl | hlater
    · exact h.agree m' (List.mem_append_left _ hearlier) haction v hgives
    · exact hgives
    · exact h.agree m' (List.mem_append_right _ hlater) haction v hgives
  · intro hgives
    exact ⟨m, by simp [h.members_eq], h.isAction, hgives⟩

/-- The search is not misled: the key does not occur, or the search comes to a
top-level member. -/
def NotMisled (o : ObjectText) : Prop :=
  strstr o.text actionKey = none ∨ ∃ earlier m later, ComesTo o earlier m later

/-- The search is not misled, and what it comes to reads right. If the key does not
occur, no member named `action` in another spelling gives anything. -/
def Readable (o : ObjectText) : Prop :=
  (strstr o.text actionKey = none ∧ ∀ m ∈ o.members, IsAction m → ∀ v, ¬ Gives m v) ∨
    ∃ earlier m later, ComesTo o earlier m later ∧ ReadsRight m

/-- **When the search finds the member.** For every text of an object the search finds
the member if the text is readable; and where the search is not misled it finds the
member only then. -/
theorem findsMember_iff (o : ObjectText) :
    (Readable o → FindsMember o) ∧ (NotMisled o → FindsMember o → Readable o) := by
  have hcomes : ∀ {earlier m later}, ComesTo o earlier m later →
      (FindsMember o ↔ ReadsRight m) := by
    intro earlier m later h
    rw [← readMember_eq_some_iff]
    exact forall_congr' fun v => by rw [h.extract_eq, h.exists_gives_iff]
  have habsent : strstr o.text actionKey = none →
      (FindsMember o ↔ ∀ m ∈ o.members, IsAction m → ∀ v, ¬ Gives m v) := by
    intro h
    simp only [FindsMember, extractJsonStringValue_eq_none h, reduceCtorEq, false_iff, not_exists,
      not_and]
    exact ⟨fun hnone m hm haction v => hnone v m hm haction,
      fun hnone v m hm haction => hnone m hm haction v⟩
  constructor
  · rintro (⟨hnone, hgives⟩ | ⟨earlier, m, later, h, hright⟩)
    · exact (habsent hnone).mpr hgives
    · exact (hcomes h).mpr hright
  · rintro (hnone | ⟨earlier, m, later, h⟩) hfinds
    · exact .inl ⟨hnone, (habsent hnone).mp hfinds⟩
    · exact .inr ⟨earlier, m, later, h, (hcomes h).mp hfinds⟩

/-- A member with a name and a string, without white space. -/
def stringMember (name value : List Piece) : Member :=
  .mk .none name .none .none (.string value) .none

/-- One space. -/
def space : Blank := ⟨[0x20], by simp⟩

/-- An object with the action `on` behind two other members, with white space. -/
def onObject : ObjectText where
  before := space
  inner := .none
  members := [
    .mk space (plainString "blink".toList (by decide)) .none space (.bool false) .none,
    .mk space (plainString "color".toList (by decide)) space space
      (.string (plainString "red".toList (by decide))) .none,
    .mk space (plainString "action".toList (by decide)) space space
      (.string (plainString "on".toList (by decide))) space]
  after := .none

/-- The search finds its member. -/
theorem findsMember_onObject :
    onObject.text =
        lit " \x7b \"blink\": false, \"color\" : \"red\", \"action\" : \"on\" \x7d" ∧
      FindsMember onObject := by
  refine ⟨by decide, (findsMember_iff onObject).1
    (.inr ⟨onObject.members.take 2, _, [], ⟨rfl, ?_, ?_, ?_⟩, ?_⟩)⟩
  · decide
  · decide
  · intro m hm haction
    have hother : ∀ m ∈ onObject.members.take 2 ++ [], escapes m.name = 0 ∧
        contentText m.name ≠ lit "action" := by decide
    obtain ⟨hescapes, hname⟩ := hother m hm
    exact absurd haction (not_isAction hescapes hname)
  · intro s hs
    obtain rfl := Value.string.inj hs
    exact .inl ⟨by decide, by decide, by decide⟩

/-- An object with the string `action` as the value of another member. -/
def misleadingObject : ObjectText where
  before := .none
  inner := .none
  members := [
    stringMember (plainString "color".toList (by decide)) (plainString "action".toList (by decide)),
    stringMember (plainString "x".toList (by decide)) (plainString "red".toList (by decide))]
  after := .none

/-- The search returns the value of a third member, where there is no action. -/
theorem findsMember_not_misleadingObject :
    misleadingObject.text = lit "\x7b\"color\":\"action\",\"x\":\"red\"\x7d" ∧
      extractJsonStringValue (some misleadingObject.text) actionKey = some (lit "red") ∧
      ¬ FindsMember misleadingObject := by
  have htext : misleadingObject.text = lit "\x7b\"color\":\"action\",\"x\":\"red\"\x7d" := by
    decide
  have hread : extractJsonStringValue (some misleadingObject.text) actionKey =
      some (lit "red") := by
    rw [htext]
    decide
  refine ⟨htext, hread, fun h => ?_⟩
  obtain ⟨m, hm, haction, -⟩ := (h _).mp hread
  have hother : ∀ m ∈ misleadingObject.members, escapes m.name = 0 ∧
      contentText m.name ≠ lit "action" := by decide
  obtain ⟨hescapes, hname⟩ := hother m hm
  exact not_isAction hescapes hname haction

end LedMatrix
