import LedMatrix.Lib.JsonText
import LedMatrix.PostOutcome
import LedMatrix.WebUi

/-!
# From the page to the firmware

The page encodes an update as a JSON text without blanks. The longest such text is
shorter than the buffer of `led_handler`, so each of them arrives as a whole, and
the message published for it says what the page has encoded.
-/

namespace LedMatrix

open CText JsonText Reassembly Mealy

/-- `JSON.stringify` of the body of an update. -/
def UiPost.stringify (p : UiPost) : List UInt8 :=
  lit s!"\x7b\"r\":{p.color.r},\"g\":{p.color.g},\"b\":{p.color.b},\"index\":{p.index},\"rainbow\":{p.rainbow}\x7d"

example : (⟨⟨255, 0, 7⟩, 256, true⟩ : UiPost).stringify =
    lit "\x7b\"r\":255,\"g\":0,\"b\":7,\"index\":256,\"rainbow\":true\x7d" := by decide

/-- The members of the body, as `struct led_command` holds them once decoded. -/
def UiPost.ledCommand (p : UiPost) : LedCommand :=
  ⟨p.color.r.toUInt32, p.color.g.toUInt32, p.color.b.toUInt32, .ofNat p.index, p.rainbow⟩

/-! ## The body as an object -/

/-- The names and the values of the members, as they are spelled in the body. -/
def UiPost.spellings (p : UiPost) : List (List UInt8 × List UInt8) :=
  [(lit "r", lit (toString p.color.r)), (lit "g", lit (toString p.color.g)),
    (lit "b", lit (toString p.color.b)), (lit "index", lit (toString p.index)),
    (lit "rainbow", lit (toString p.rainbow))]

/-- The object has the members of the body, with any white space around them. -/
def UiPost.EncodedBy (p : UiPost) (o : ObjectText) : Prop :=
  o.members.map Member.spelling = p.spellings

/-- `json_obj_parse` decodes every text of an object with the members of the body. -/
def JsonObjParse.Decodes (json : JsonObjParse) (p : UiPost) : Prop :=
  ∀ o : ObjectText, p.EncodedBy o → json.ledCommand o.text = ⟨31, p.ledCommand⟩

/-- The body is the members and nothing else. -/
theorem UiPost.stringify_eq (p : UiPost) :
    p.stringify = 0x7b :: (compactMembers p.spellings ++ [0x7d]) := by
  have hopen : lit (toString "\x7b\"r\":") = 0x7b :: 0x22 :: (lit "r" ++ [0x22, 0x3a]) := by
    decide
  have hg : lit (toString ",\"g\":") = 0x2c :: 0x22 :: (lit "g" ++ [0x22, 0x3a]) := by decide
  have hb : lit (toString ",\"b\":") = 0x2c :: 0x22 :: (lit "b" ++ [0x22, 0x3a]) := by decide
  have hindex : lit (toString ",\"index\":") =
      0x2c :: 0x22 :: (lit "index" ++ [0x22, 0x3a]) := by decide
  have hrainbow : lit (toString ",\"rainbow\":") =
      0x2c :: 0x22 :: (lit "rainbow" ++ [0x22, 0x3a]) := by decide
  have hclose : lit (toString "\x7d") = [0x7d] := by decide
  simp only [stringify, lit_append, hopen, hg, hb, hindex, hrainbow, hclose]
  simp [compactMembers, spellings]

/-- A member with a name of plain characters, without white space. -/
def plainMember (name : String) (h : PlainChars name.toList) (value : Value) : Member :=
  .mk .none (plainString name.toList h) .none .none value .none

/-- The text of a member without white space is its name and its value. -/
theorem text_plainMember (name : String) (h : PlainChars name.toList) (value : Value) :
    (plainMember name h value).text =
      0x22 :: ((plainMember name h value).spelling.1 ++
        0x22 :: 0x3a :: (plainMember name h value).spelling.2) := by
  simp [plainMember, Member.text, Member.spelling, Member.name, Member.value, stringText,
    Blank.none]

/-- The body as an object. -/
def UiPost.object (p : UiPost) : ObjectText where
  before := .none
  inner := .none
  members := [
    plainMember "r" (by decide) (.number (.ofNat p.color.r.toNat)),
    plainMember "g" (by decide) (.number (.ofNat p.color.g.toNat)),
    plainMember "b" (by decide) (.number (.ofNat p.color.b.toNat)),
    plainMember "index" (by decide) (.number (.ofNat p.index)),
    plainMember "rainbow" (by decide) (.bool p.rainbow)]
  after := .none

/-- **The body is an object** with its members, and `JSON.stringify` writes its text. -/
theorem UiPost.object_encodes (p : UiPost) :
    p.EncodedBy p.object ∧ p.object.text = p.stringify := by
  have hencodes : p.EncodedBy p.object := by
    have hflag : (Value.bool p.rainbow).text = lit (toString p.rainbow) := by
      cases p.rainbow <;> rfl
    have hnumber : ∀ n, (Value.number (.ofNat n)).text = lit (toString n) := by
      simp [Value.text]
    unfold EncodedBy object
    simp only [List.map_cons, List.map_nil, plainMember, Member.spelling, Member.name, Member.value,
      hflag, hnumber]
    rfl
  refine ⟨hencodes, ?_⟩
  have hmembers : membersText p.object.members = compactMembers p.spellings := by
    rw [← hencodes]
    simp only [object, membersText, text_plainMember, compactMembers, List.map_cons, List.map_nil,
      List.intercalate_cons_cons, List.intercalate_singleton]
    simp
  rw [stringify_eq, ← hmembers]
  simp [ObjectText.text, Value.text, object, Blank.none]

/-! ## The length of the body -/

/-- A number below 1000 has at most three digits. -/
theorem length_toString_le {n : ℕ} (h : n < 1000) : (toString n).length ≤ 3 := by
  rw [Nat.toString_eq_ofList_toDigits, String.length_ofList]
  exact (Nat.length_toDigits_le_iff (by decide) (by decide)).mpr h

/-- **The body fits.** It has at most 53 of the 64 bytes. -/
theorem UiPost.stringify_length_le {p : UiPost} (h : p.index ≤ 256) :
    p.stringify.length ≤ postPayloadBufSize := by
  have hr : (toString p.color.r).length ≤ 3 :=
    length_toString_le (Nat.lt_trans p.color.r.toNat_lt (by decide))
  have hg : (toString p.color.g).length ≤ 3 :=
    length_toString_le (Nat.lt_trans p.color.g.toNat_lt (by decide))
  have hb : (toString p.color.b).length ≤ 3 :=
    length_toString_le (Nat.lt_trans p.color.b.toNat_lt (by decide))
  have hindex : (toString p.index).length ≤ 3 := length_toString_le (by omega)
  have hflag : ∀ flag : Bool, (toString flag).length ≤ 5 := by decide
  have hrainbow := hflag p.rainbow
  have hlit : ∀ s, (lit s).length = s.length := by simp [lit, String.length_toList]
  rw [stringify, hlit]
  have hnames : (toString "\x7b\"r\":").length = 5 ∧ (toString ",\"g\":").length = 5 ∧
      (toString ",\"b\":").length = 5 ∧ (toString ",\"index\":").length = 9 ∧
        (toString ",\"rainbow\":").length = 11 ∧ (toString "\x7d").length = 1 := by decide
  obtain ⟨hnameR, hnameG, hnameB, hnameIndex, hnameRainbow, hclose⟩ := hnames
  simp only [String.length_append, hnameR, hnameG, hnameB, hnameIndex, hnameRainbow, hclose,
    postPayloadBufSize]
  omega

/-! ## The message -/

/-- The message says what the page has encoded: its index, its rainbow flag and its
colour, with the limit on white light. -/
structure UiPost.Published (cfg : Config) (p : UiPost) (msg : LedMsg) : Prop where
  action_eq : msg.action = .custom
  index_eq : msg.index.toNat = p.index
  rainbow_eq : msg.rainbow = p.rainbow
  color_eq : msg.color =
    if cfg.whiteLedBrightness < p.color.r.toNat ∧ cfg.whiteLedBrightness < p.color.g.toNat ∧
        cfg.whiteLedBrightness < p.color.b.toNat then
      ⟨UInt8.ofNat cfg.whiteLedBrightness, UInt8.ofNat cfg.whiteLedBrightness,
        UInt8.ofNat cfg.whiteLedBrightness⟩
    else p.color

/-- A channel that fits in a byte is not changed by its clamp. -/
theorem clampChannelU_toUInt32 (c : UInt8) : clampChannelU c.toUInt32 = c := by
  have hlt := c.toNat_lt
  rw [← UInt8.toNat_inj, clampChannelU_toNat, UInt8.toNat_toUInt32]
  omega

/-- The message made of the decoded members says what the page has encoded. -/
theorem UiPost.published_ledCommandMsg {cfg : Config} (hpixels : cfg.ledMatrixPixels = 256)
    {p : UiPost} (hindex : p.index ≤ 256) : p.Published cfg (ledCommandMsg cfg p.ledCommand) where
  action_eq := rfl
  index_eq := by
    have hmsg : (ledCommandMsg cfg p.ledCommand).index = clampIndexU cfg (.ofNat p.index) := by
      simp only [ledCommandMsg, limitWhite_index]
      rfl
    rw [hmsg, clampIndexU_toNat, UInt32.toNat_ofNat', hpixels]
    omega
  rainbow_eq := by
    simp only [ledCommandMsg, limitWhite_index]
    rfl
  color_eq := by
    rw [ledCommandMsg_color]
    simp only [ledCommand, UInt8.toNat_toUInt32, clampChannelU_toUInt32]

/-- A decoder that knows the body of the update decodes what `JSON.stringify` writes. -/
theorem JsonObjParse.Decodes.stringify {json : JsonObjParse} {p : UiPost} (h : json.Decodes p) :
    json.ledCommand p.stringify = ⟨31, p.ledCommand⟩ := by
  obtain ⟨hencodes, htext⟩ := p.object_encodes
  rw [← htext, h _ hencodes]

/-- **The page and the firmware fit together.** For every update of the page and every
way of cutting its body into chunks, after any transactions before it: the handler
accepts the body, and one message is published, which says what the page has encoded. -/
theorem uiPost_published (cfg : Config) (hpixels : cfg.ledMatrixPixels = 256)
    (json : JsonObjParse) (pub : LedMsg → Int) {p : UiPost} (hindex : p.index ≤ 256)
    (hdecodes : json.Decodes p) (xs : List Transaction)
    {chunks : List (List UInt8)} {last : List UInt8}
    (hbody : chunks.flatten ++ last = p.stringify) :
    p.stringify.length ≤ postPayloadBufSize ∧
      (∀ e ∈ postEffects cfg json pub (servedState xs) chunks last, e.ret = 0) ∧
      ∃ msg, p.Published cfg msg ∧
        (postEffects cfg json pub (servedState xs) chunks last).flatMap HandlerEffect.published =
          [(msg, pub msg)] := by
  have hfits := p.stringify_length_le hindex
  obtain ⟨hrets, -, hpublished⟩ := postEffects_fits cfg json pub (servedState_empty xs)
    (by rwa [hbody] : (chunks.flatten ++ last).length ≤ postPayloadBufSize)
  have hparse : parseLedPost cfg json (chunks.flatten ++ last) =
      some (ledCommandMsg cfg p.ledCommand) := by
    rw [hbody]
    exact parseLedPost_eq_some.mpr
      ⟨by rw [hdecodes.stringify]; rfl, by rw [hdecodes.stringify]⟩
  rw [hparse] at hpublished
  exact ⟨hfits, hrets, _, p.published_ledCommandMsg hpixels hindex, hpublished⟩

/-- A decoder that knows the body of one update, with any white space in it. -/
def decodesUpdate (p : UiPost) : JsonObjParse where
  ledCommand text :=
    if strip text = p.stringify then ⟨31, p.ledCommand⟩ else ⟨-22, ⟨0, 0, 0, 0, false⟩⟩
  mcpLedArgs text := ⟨-22, .zero, text⟩

/-- The names and the values of the members have no white space in them. -/
theorem UiPost.unspaced (p : UiPost) :
    ∀ s ∈ p.spellings, strip s.1 = s.1 ∧ strip s.2 = s.2 := by
  have hnumber : ∀ n : ℕ, strip (lit (toString n)) = lit (toString n) := by
    intro n
    rw [strip, List.filter_eq_self]
    intro c hc
    rw [(isSpace_of_isDigit (isDigit_of_mem_lit_toString hc)).1]
    rfl
  have hflag : ∀ flag : Bool, strip (lit (toString flag)) = lit (toString flag) := by decide
  simp only [spellings, List.forall_mem_cons, List.not_mem_nil, false_implies, implies_true,
    and_true]
  exact ⟨⟨by decide, hnumber _⟩, ⟨by decide, hnumber _⟩, ⟨by decide, hnumber _⟩,
    ⟨by decide, hnumber _⟩, by decide, hflag _⟩

/-- The decoder that knows one update decodes every text of an object with its members. -/
theorem decodesUpdate_decodes (p : UiPost) : (decodesUpdate p).Decodes p := by
  intro o hencodes
  have hunspaced : ∀ m ∈ o.members, m.Unspaced := fun m hm =>
    p.unspaced m.spelling (hencodes ▸ List.mem_map_of_mem hm)
  have hstrip : strip o.text = p.stringify := by
    rw [ObjectText.strip_text hunspaced, p.stringify_eq, hencodes]
  exact if_pos hstrip

/-- An update of all pixels in full white, with the limit of 15. -/
def whiteUpdate : UiPost := ⟨⟨255, 255, 255⟩, 256, false⟩

/-- Cut into two chunks it is accepted, and published as dim white. -/
theorem uiPost_published_whiteUpdate :
    ∃ msg, whiteUpdate.Published .default msg ∧
      (postEffects .default (decodesUpdate whiteUpdate) (fun _ => 0) (servedState [])
        [whiteUpdate.stringify.take 20] (whiteUpdate.stringify.drop 20)).flatMap
          HandlerEffect.published = [(msg, 0)] :=
  (uiPost_published .default rfl (decodesUpdate whiteUpdate) (fun _ => 0) (by decide)
    (decodesUpdate_decodes whiteUpdate) [] (by simp)).2.2

end LedMatrix
