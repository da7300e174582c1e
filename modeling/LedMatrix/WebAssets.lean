import LedMatrix.Lib.CSource
import LedMatrix.HexColor

/-!
# The embedded files of the page

`embed_assets.py` writes the compressed files of the page as C text, and `main.c` serves the
constants that this text declares. What a browser gets for a file is what `gzip` made of
it, byte for byte; a file that the script does not find is not declared at all.
-/

namespace LedMatrix

open CSource

/-! ## The script -/

/-- An entry of `files`: the name of a file, of its constant, and its type. -/
structure AssetFile where
  filename : String
  varName : String
  mimeType : String
deriving DecidableEq

/-- `files`. -/
def files : List AssetFile :=
  [⟨"index.html", "index_html_gz", "text/html"⟩,
    ⟨"style.css", "style_css_gz", "text/css"⟩,
    ⟨"app.js", "app_js_gz", "application/javascript"⟩]

/-- A file that the script finds: what it reads, and what `gzip.compress` makes of it, which
is never empty. -/
structure FoundFile where
  data : List UInt8
  compressed : List UInt8
  nonempty : compressed ≠ []

/-- An element of `hex_bytes`. -/
def hexByte (byte : UInt8) : List Char := '0' :: 'x' :: channelDigits byte

/-- `xs[i:i+n] for i in range(0, len(xs), n)`. -/
def chunks {α : Type*} (n : ℕ) (xs : List α) : List (List α) :=
  (List.range ((xs.length + (n - 1)) / n)).map fun k => (xs.drop (n * k)).take n

example : chunks 2 [1, 2, 3, 4, 5] = [[1, 2], [3, 4], [5]] := by decide

/-- An element of `lines`. -/
def hexLine (chunk : List (List Char)) : List Char := '\t' :: ", ".toList.intercalate chunk

/-- The comment that `generate_header` writes for a file that it finds. -/
def commentText (file : AssetFile) (found : FoundFile) : List Char :=
  "/* ".toList ++ file.filename.toList ++ " - Original: ".toList ++
    Nat.toDigits 10 found.data.length ++ " bytes, MIME: ".toList ++ file.mimeType.toList ++
    " */\n".toList

/-- The array that it writes. -/
def arrayText (file : AssetFile) (found : FoundFile) : List Char :=
  let lines := (chunks 12 (found.compressed.map hexByte)).map hexLine
  "static const uint8_t ".toList ++ file.varName.toList ++ "[] = \x7b\n".toList ++
    ",\n".toList.intercalate lines ++ "\n\x7d;\n".toList

/-- The length that it writes. -/
def lengthText (file : AssetFile) (found : FoundFile) : List Char :=
  "static const size_t ".toList ++ file.varName.toList ++ "_len = ".toList ++
    Nat.toDigits 10 found.compressed.length ++ ";\n\n".toList

/-- What it writes for a file that it finds. -/
def assetText (file : AssetFile) (found : FoundFile) : List Char :=
  commentText file found ++ arrayText file found ++ lengthText file found

/-- `generate_header`: the text that it writes, for what it finds under each name. -/
def generateHeader (disk : String → Option FoundFile) : List Char :=
  "/* Auto-generated header containing compressed web assets. */\n".toList ++
  "#ifndef WEB_ASSETS_H\n".toList ++ "#define WEB_ASSETS_H\n\n".toList ++
  "#include <zephyr/kernel.h>\n\n".toList ++
  (files.flatMap fun file => ((disk file.filename).map (assetText file)).getD []) ++
  "#endif /* WEB_ASSETS_H */\n".toList

/-! ## The static resources -/

/-- A resource of `main.c` with constant data, as far as it is served: the path that it is
registered for and the names of the constants that hold its data and its length. -/
structure StaticResource where
  path : String
  contentEncoding : String
  contentType : String
  staticData : String
  staticDataLen : String
deriving DecidableEq

/-- `index_html_gz_resource`. -/
def indexHtmlGzResource : StaticResource :=
  ⟨"/", "gzip", "text/html", "index_html_gz", "index_html_gz_len"⟩

/-- `app_js_gz_resource`. -/
def appJsGzResource : StaticResource :=
  ⟨"/app.js", "gzip", "text/javascript", "app_js_gz", "app_js_gz_len"⟩

/-- `style_css_gz_resource`. -/
def styleCssGzResource : StaticResource :=
  ⟨"/style.css", "gzip", "text/css", "style_css_gz", "style_css_gz_len"⟩

/-- The resources that serve the page. -/
def pageResources : List StaticResource :=
  [indexHtmlGzResource, appJsGzResource, styleCssGzResource]

/-- The bytes of a constant array with a name. -/
def arrayNamed (name : String) (constant : Constant) : Option (List UInt8) :=
  match constant with
  | .array type name' values =>
    if type = "uint8_t".toList ∧ name' = name.toList then some (values.map UInt8.ofNat) else none
  | .scalar .. => none

/-- The value of a constant with a name. -/
def scalarNamed (name : String) (constant : Constant) : Option ℕ :=
  match constant with
  | .array .. => none
  | .scalar _ name' value => if name' = name.toList then some value else none

/-- The bytes that a resource sends, if its constants are declared and hold that many. -/
def StaticResource.body (resource : StaticResource) (declared : List Constant) :
    Option (List UInt8) := do
  let data ← declared.findSome? (arrayNamed resource.staticData)
  let len ← declared.findSome? (scalarNamed resource.staticDataLen)
  if len ≤ data.length then some (data.take len) else none

/-! ## What the text declares -/

/-- The macro that keeps the text from being read twice. -/
def guardName : List Char := "WEB_ASSETS_H".toList

/-- A file whose names can stand in the text: in a comment, and as the name of a constant. -/
structure AssetFile.WellNamed (file : AssetFile) : Prop where
  filename : '*' ∉ file.filename.toList
  mimeType : '*' ∉ file.mimeType.toList
  varName_ne_nil : file.varName.toList ≠ []
  varName : file.varName.toList.all isWordChar = true
  no_macro : file.varName.toList ≠ guardName ∧ file.varName.toList ++ "_len".toList ≠ guardName

/-- The files of the page have such names. -/
theorem wellNamed_files : ∀ file ∈ files, file.WellNamed := by
  intro file hfile
  simp only [files, List.mem_cons, List.not_mem_nil, or_false] at hfile
  rcases hfile with rfl | rfl | rfl
  all_goals exact ⟨by decide, by decide, by decide, by decide, by decide⟩

/-- The tokens of the array of a file, without the semicolon. -/
def arrayTokens (file : AssetFile) (bytes : List UInt8) : List Token :=
  [.word "static".toList, .word "const".toList, .word "uint8_t".toList, .word file.varName.toList,
    .punct '[', .punct ']', .punct '=', .punct '\x7b'] ++
  [Token.punct ','].intercalate (bytes.map fun byte => [.word (hexByte byte)]) ++
  [.punct '\x7d']

/-- The tokens of the length of a file, without the semicolon. -/
def lengthTokens (file : AssetFile) (length : ℕ) : List Token :=
  [.word "static".toList, .word "const".toList, .word "size_t".toList,
    .word (file.varName.toList ++ "_len".toList), .punct '=', .word (Nat.toDigits 10 length)]

/-- The pieces of a list make it up. -/
theorem flatten_chunks {α : Type*} {n : ℕ} (hn : 0 < n) (xs : List α) :
    (chunks n xs).flatten = xs := by
  have hfirst : ∀ m, ((List.range m).map fun k => (xs.drop (n * k)).take n).flatten =
      xs.take (n * m) := by
    intro m
    induction m with
    | zero => simp
    | succ m ih =>
      rw [List.range_succ, List.map_append, List.flatten_append, ih, Nat.mul_succ, List.take_add]
      simp
  have hall : xs.length ≤ n * ((xs.length + (n - 1)) / n) := by
    have hdiv := Nat.div_add_mod (xs.length + (n - 1)) n
    have hmod := Nat.mod_lt (xs.length + (n - 1)) hn
    omega
  rw [chunks, hfirst, List.take_of_length_le hall]

/-- No piece is empty. -/
theorem nil_notMem_chunks {α : Type*} {n : ℕ} (hn : 0 < n) (xs : List α) : [] ∉ chunks n xs := by
  intro hmem
  obtain ⟨k, hk, hpiece⟩ := List.mem_map.mp hmem
  have hlt : n * k < xs.length := by
    have hle := Nat.mul_le_mul_left n (List.mem_range.mp hk)
    have hdiv := Nat.mul_div_le (xs.length + (n - 1)) n
    rw [Nat.mul_succ] at hle
    omega
  have hlength := congrArg List.length hpiece
  rw [List.length_take, List.length_drop, List.length_nil] at hlength
  omega

/-- The declarations in the text for a file, each with the constant that it declares. -/
def fileDeclarations (file : AssetFile) (found : FoundFile) : List (List Token × Constant) :=
  [(arrayTokens file found.compressed,
      .array "uint8_t".toList file.varName.toList (found.compressed.map UInt8.toNat)),
    (lengthTokens file found.compressed.length,
      .scalar "size_t".toList (file.varName.toList ++ "_len".toList) found.compressed.length)]

/-- The declarations in the text for all files that are found. -/
def headerDeclarations (disk : String → Option FoundFile) : List (List Token × Constant) :=
  files.flatMap fun file => ((disk file.filename).map (fileDeclarations file)).getD []

/-! ### Lines of bytes -/

/-- A byte is written as a word. -/
theorem isWordChar_of_mem_hexByte (byte : UInt8) : ∀ c ∈ hexByte byte, isWordChar c = true := by
  have hall : ∀ n : Fin 256, (hexByte (.ofNat n)).all isWordChar = true := by decide +kernel
  have hbyte := hall ⟨byte.toNat, byte.toNat_lt⟩
  rw [UInt8.ofNat_toNat] at hbyte
  exact List.all_eq_true.mp hbyte

/-- The word that is written for a byte is its value in C. -/
theorem number_hexByte (byte : UInt8) : number (hexByte byte) = some byte.toNat := by
  have hall : ∀ n : Fin 256, number (hexByte (.ofNat n)) = some n.val := by decide +kernel
  have hbyte := hall ⟨byte.toNat, byte.toNat_lt⟩
  rwa [UInt8.ofNat_toNat] at hbyte

/-- Decimal digits are letters of words, and no stars. -/
theorem isWordChar_of_mem_toDigits {n : ℕ} {c : Char} (h : c ∈ Nat.toDigits 10 n) :
    isWordChar c = true := by
  have hdigit := Nat.isDigit_of_mem_toDigits (by decide) (by decide) h
  simp [isWordChar, Char.isAlphanum, hdigit]

/-- The lines of an array lex to its bytes. -/
theorem lexesBefore_lines {bytes : List UInt8} (hne : bytes ≠ []) :
    LexesBefore (",\n".toList.intercalate ((chunks 12 (bytes.map hexByte)).map hexLine))
      ([Token.punct ','].intercalate (bytes.map fun byte => [.word (hexByte byte)])) := by
  have hpieces := flatten_chunks (by decide : 0 < 12) (bytes.map hexByte)
  have hfull := nil_notMem_chunks (by decide : 0 < 12) (bytes.map hexByte)
  have hword : ∀ chunk ∈ chunks 12 (bytes.map hexByte), ∀ w ∈ chunk, LexesBefore w [.word w] := by
    intro chunk hchunk w hw
    have hmem : w ∈ bytes.map hexByte := hpieces ▸ List.mem_flatten_of_mem hchunk hw
    obtain ⟨byte, -, rfl⟩ := List.mem_map.mp hmem
    exact lexesBefore_word (List.cons_ne_nil _ _) (isWordChar_of_mem_hexByte byte)
  have hline : ∀ chunk ∈ chunks 12 (bytes.map hexByte), LexesBefore (hexLine chunk)
      ([Token.punct ','].intercalate (chunk.map fun w => [.word w])) := by
    intro chunk hchunk
    have hchunkne : chunk ≠ [] := fun hnil => hfull (hnil ▸ hchunk)
    have hjoined := lexesBefore_intercalate ',' [' '] (by decide) (by decide)
      hchunkne (hword chunk hchunk)
    rw [List.map_id'] at hjoined
    have htab : Lexes ['\t'] [] := by decide
    exact htab.before hjoined
  have hpiecesne : chunks 12 (bytes.map hexByte) ≠ [] := by
    intro hnil
    rw [hnil] at hpieces
    exact hne (List.map_eq_nil_iff.mp hpieces.symm)
  have hlines := lexesBefore_intercalate ',' ['\n'] (by decide) (by decide)
    hpiecesne hline
  have hmap : (chunks 12 (bytes.map hexByte)).map
      (fun chunk => [Token.punct ','].intercalate (chunk.map fun w => [.word w])) =
      ((chunks 12 (bytes.map hexByte)).map (List.map fun w => [Token.word w])).map
        [Token.punct ','].intercalate := by
    rw [List.map_map]
    rfl
  have hfull' : [] ∉ (chunks 12 (bytes.map hexByte)).map (List.map fun w => [Token.word w]) := by
    simpa using hfull
  have hcomma : joinLines (beginAt ',').2 = [.punct ','] := by decide
  rw [hmap, hcomma, intercalate_intercalate hfull', ← List.map_flatten, hpieces, List.map_map]
    at hlines
  exact hlines

/-! ### The whole text -/

/-- The comment of a file has no tokens. -/
theorem lexes_commentText {file : AssetFile} (hnamed : file.WellNamed) (found : FoundFile) :
    Lexes (commentText file found) [] := by
  have hdigits : '*' ∉ Nat.toDigits 10 found.data.length :=
    fun h => absurd (isWordChar_of_mem_toDigits h) (by decide)
  have hbody : '*' ∉ " ".toList ++ file.filename.toList ++ " - Original: ".toList ++
      Nat.toDigits 10 found.data.length ++ " bytes, MIME: ".toList ++ file.mimeType.toList ++
      " ".toList := by
    simp only [List.mem_append, not_or]
    exact ⟨⟨⟨⟨⟨⟨by decide, hnamed.filename⟩, by decide⟩, hdigits⟩, by decide⟩, hnamed.mimeType⟩,
      by decide⟩
  have hend : Lexes "\n".toList [] := by decide
  have hlexes := (lexes_comment hbody).append hend
  simp only [List.append_assoc] at hlexes
  unfold commentText
  simp only [List.append_assoc]
  exact hlexes

/-- The array of a file lexes to its tokens. -/
theorem lexes_arrayText {file : AssetFile} (hnamed : file.WellNamed) (found : FoundFile) :
    Lexes (arrayText file found) (arrayTokens file found.compressed ++ [.punct ';']) := by
  have htype : Lexes "static const uint8_t ".toList
      [.word "static".toList, .word "const".toList, .word "uint8_t".toList] := by decide
  have hopen : Lexes "] = \x7b\n".toList [.punct ']', .punct '=', .punct '\x7b'] := by decide
  have hclose : Lexes "\x7d;\n".toList [.punct '\x7d', .punct ';'] := by decide
  have hvar := lexesBefore_word hnamed.varName_ne_nil (List.all_eq_true.mp hnamed.varName) '['
    (by decide)
  have hlines := lexesBefore_lines found.nonempty '\n' (by decide)
  have hlexes := htype.append (hvar.append (hopen.append (hlines.append hclose)))
  simp only [List.append_assoc] at hlexes
  unfold arrayText arrayTokens
  simp only [List.append_assoc]
  exact hlexes

/-- The length of a file lexes to its tokens, before the empty line after it. -/
theorem lexes_lengthText {file : AssetFile} (hnamed : file.WellNamed) (found : FoundFile) :
    ∃ front, lengthText file found = front ++ ['\n'] ∧
      Lexes front (lengthTokens file found.compressed.length ++ [.punct ';']) := by
  have htype : Lexes "static const size_t ".toList
      [.word "static".toList, .word "const".toList, .word "size_t".toList] := by decide
  have hvarname : ∀ c ∈ file.varName.toList ++ "_len".toList, isWordChar c = true := by
    have hsuffix : "_len".toList.all isWordChar = true := by decide
    exact List.forall_mem_append.mpr
      ⟨List.all_eq_true.mp hnamed.varName, List.all_eq_true.mp hsuffix⟩
  have hvar := lexesBefore_word (by simp) hvarname ' ' (by decide)
  have hequals : Lexes "= ".toList [.punct '='] := by decide
  have hdigits := lexesBefore_word Nat.toDigits_ne_nil
    (fun c hc => isWordChar_of_mem_toDigits (n := found.compressed.length) hc) ';' (by decide)
  have hend : Lexes "\n".toList [] := by decide
  have hlexes := htype.append (hvar.append (hequals.append (hdigits.append hend)))
  refine ⟨"static const size_t ".toList ++ file.varName.toList ++ "_len = ".toList ++
    Nat.toDigits 10 found.compressed.length ++ ";\n".toList, ?_, ?_⟩
  · have hlast : ";\n\n".toList = ";\n".toList ++ ['\n'] := by decide
    unfold lengthText
    generalize Nat.toDigits 10 found.compressed.length = digits
    rw [hlast, ← List.append_assoc]
  · have hlen : "_len = ".toList = "_len".toList ++ ([' '] ++ "= ".toList) := by decide
    have hstop : ";\n".toList = [';'] ++ "\n".toList := by decide
    have hblank : joinLines (beginAt ' ').2 = [] := by decide
    have hsemicolon : joinLines (beginAt ';').2 = [.punct ';'] := by decide
    rw [hlen, hstop, lengthTokens]
    simpa only [hblank, hsemicolon, List.append_assoc, List.append_nil, List.cons_append,
      List.nil_append] using hlexes

/-- Statements with their semicolons. -/
def statements (declarations : List (List Token × Constant)) : List Token :=
  declarations.flatMap fun d => d.1 ++ [.punct ';']

/-- A token that is neither in the lists nor in what joins them. -/
theorem notMem_intercalate {α : Type*} {a : α} {sep : List α} {xs : List (List α)}
    (hsep : a ∉ sep) (h : ∀ x ∈ xs, a ∉ x) : a ∉ sep.intercalate xs := by
  induction xs with
  | nil => simp
  | cons x xs ih =>
    obtain ⟨hx, hxs⟩ := List.forall_mem_cons.mp h
    cases xs with
    | nil => simpa using hx
    | cons y ys =>
      rw [List.intercalate_cons_cons, List.mem_append, List.mem_append, not_or, not_or]
      exact ⟨⟨hx, hsep⟩, ih hxs⟩

/-- The text for a file lexes to its declarations, before the empty line after it. -/
theorem lexes_assetText {file : AssetFile} (hnamed : file.WellNamed) (found : FoundFile) :
    ∃ front, assetText file found = front ++ ['\n'] ∧
      Lexes front (statements (fileDeclarations file found)) := by
  obtain ⟨front, hfront, hlength⟩ := lexes_lengthText hnamed found
  have hlexes := ((lexes_commentText hnamed found).append (lexes_arrayText hnamed found)).append
    hlength
  refine ⟨commentText file found ++ arrayText file found ++ front, ?_, ?_⟩
  · rw [assetText, hfront]
    simp
  · rw [List.nil_append] at hlexes
    simpa [statements, fileDeclarations] using hlexes

/-- No word that is written for a file is the macro. -/
theorem guardName_notMem_statements {file : AssetFile} (hnamed : file.WellNamed)
    (found : FoundFile) :
    .word guardName ∉ statements (fileDeclarations file found) := by
  have hkeywords : "static".toList ≠ guardName ∧ "const".toList ≠ guardName ∧
      "uint8_t".toList ≠ guardName ∧ "size_t".toList ≠ guardName := by decide
  have hdigits : guardName ≠ Nat.toDigits 10 found.compressed.length := by
    intro heq
    have hmem : 'W' ∈ Nat.toDigits 10 found.compressed.length := heq ▸ by decide
    exact absurd (Nat.isDigit_of_mem_toDigits (by decide) (by decide) hmem) (by decide)
  have hbyte : ∀ byte, guardName ≠ hexByte byte := by
    intro byte heq
    exact absurd (List.cons.inj heq).1 (by decide)
  have hbytes : Token.word guardName ∉ [Token.punct ','].intercalate
      (found.compressed.map fun byte => [.word (hexByte byte)]) :=
    notMem_intercalate (by simp) (by simp [hbyte])
  obtain ⟨hstatic, hconst, huint8, hsize⟩ := hkeywords
  obtain ⟨hname, hlen⟩ := hnamed.no_macro
  simp only [statements, fileDeclarations, arrayTokens, lengthTokens, List.flatMap_cons,
    List.flatMap_nil, List.mem_append, List.mem_cons, List.not_mem_nil, Token.word.injEq,
    reduceCtorEq, or_false, false_or, not_or]
  exact ⟨⟨⟨hstatic.symm, hconst.symm, huint8.symm, hname.symm⟩, hbytes⟩, hstatic.symm,
    hconst.symm, hsize.symm, hlen.symm, hdigits⟩

/-- No number sign is written for a file outside its comment. -/
theorem numberSign_notMem_statements (file : AssetFile) (found : FoundFile) :
    .punct '#' ∉ statements (fileDeclarations file found) := by
  have hbytes : Token.punct '#' ∉ [Token.punct ','].intercalate
      (found.compressed.map fun byte => [.word (hexByte byte)]) :=
    notMem_intercalate (by decide) (by simp)
  simp [statements, fileDeclarations, arrayTokens, lengthTokens, hbytes]

/-- What is known between the guard of the text and its end. -/
def insideGuard : Preprocessor := ⟨[guardName], [true]⟩

/-- Inside the guard the text for a file is read as its declarations. -/
theorem preprocesses_assetText {file : AssetFile} (hnamed : file.WellNamed) (found : FoundFile) :
    Preprocesses insideGuard (assetText file found) insideGuard
      (statements (fileDeclarations file found)) := by
  obtain ⟨front, hfront, hlexes⟩ := lexes_assetText hnamed found
  rw [hfront]
  apply hlexes.preprocesses (by decide) (numberSign_notMem_statements file found)
  intro name hname
  obtain rfl := List.mem_singleton.mp hname
  exact guardName_notMem_statements hnamed found

/-- The text that is written is read as the declarations of the files that are found. -/
theorem preprocesses_generateHeader (disk : String → Option FoundFile) :
    Preprocesses .start (generateHeader disk) ⟨[guardName], []⟩
      (statements (headerDeclarations disk)) := by
  have hfile : ∀ file ∈ files,
      Preprocesses insideGuard (((disk file.filename).map (assetText file)).getD []) insideGuard
        (statements (((disk file.filename).map (fileDeclarations file)).getD [])) := by
    intro file hfile
    cases hfound : disk file.filename with
    | none => exact preprocesses_nil insideGuard
    | some found => exact preprocesses_assetText (wellNamed_files file hfile) found
  have htitle : Preprocesses .start
      "/* Auto-generated header containing compressed web assets. */\n".toList .start [] := by
    decide
  have hguard : Preprocesses .start "#ifndef WEB_ASSETS_H\n".toList ⟨[], [true]⟩ [] := by decide
  have hdefine : Preprocesses ⟨[], [true]⟩ "#define WEB_ASSETS_H\n\n".toList insideGuard [] := by
    decide
  have hinclude : Preprocesses insideGuard "#include <zephyr/kernel.h>\n\n".toList insideGuard
      [] := by decide
  have hendif : Preprocesses insideGuard "#endif /* WEB_ASSETS_H */\n".toList ⟨[guardName], []⟩
      [] := by decide
  have hread := ((((htitle.append hguard).append hdefine).append hinclude).append
    (preprocesses_flatMap hfile)).append hendif
  rw [List.append_nil] at hread
  unfold generateHeader statements headerDeclarations
  rw [List.flatMap_assoc]
  exact hread

/-- The array of a file is read with its bytes. -/
theorem declaration_arrayTokens (file : AssetFile) (found : FoundFile) :
    declaration (arrayTokens file found.compressed) =
      some (.array "uint8_t".toList file.varName.toList (found.compressed.map UInt8.toNat)) := by
  have hnumbers : (found.compressed.map hexByte).mapM number =
      some (found.compressed.map UInt8.toNat) :=
    mapM_map_eq_some fun byte _ => number_hexByte byte
  have hne : found.compressed.map hexByte ≠ [] := by simpa using found.nonempty
  have hread := elements_intercalate hne hnumbers
  rw [List.map_map] at hread
  have hcase : declaration (arrayTokens file found.compressed) =
      (elements ([Token.punct ','].intercalate
        (found.compressed.map fun byte => [.word (hexByte byte)]) ++ [.punct '\x7d'])).map
        fun values => .array "uint8_t".toList file.varName.toList values := by
    rfl
  rw [hcase]
  exact congrArg _ hread

/-- The length of a file is read as a number. -/
theorem declaration_lengthTokens (file : AssetFile) (length : ℕ) :
    declaration (lengthTokens file length) =
      some (.scalar "size_t".toList (file.varName.toList ++ "_len".toList) length) := by
  have hcase : declaration (lengthTokens file length) =
      (number (Nat.toDigits 10 length)).map fun value =>
        .scalar "size_t".toList (file.varName.toList ++ "_len".toList) value := by
    rfl
  rw [hcase, number_toDigits]
  rfl

/-- **The generated text**, read as C, declares for each file that is found the bytes that
`gzip` made of it and their number, and nothing else. -/
theorem constants_generateHeader (disk : String → Option FoundFile) :
    constants (generateHeader disk) = some ((headerDeclarations disk).map Prod.snd) := by
  have hdeclaration : ∀ d ∈ headerDeclarations disk,
      .punct ';' ∉ d.1 ∧ declaration d.1 = some d.2 := by
    intro d hd
    obtain ⟨file, -, hd⟩ := List.mem_flatMap.mp hd
    cases hfound : disk file.filename with
    | none => simp [hfound] at hd
    | some found =>
      simp only [hfound, Option.map_some, Option.getD_some, fileDeclarations, List.mem_cons,
        List.not_mem_nil, or_false] at hd
      rcases hd with rfl | rfl
      · refine ⟨?_, declaration_arrayTokens file found⟩
        have hbytes : Token.punct ';' ∉ [Token.punct ','].intercalate
            (found.compressed.map fun byte => [.word (hexByte byte)]) :=
          notMem_intercalate (by decide) (by simp)
        simp [arrayTokens, hbytes]
      · exact ⟨by simp [lengthTokens], declaration_lengthTokens file _⟩
  exact constants_of_preprocesses (preprocesses_generateHeader disk)
    (fun d hd => (hdeclaration d hd).1) fun d hd => (hdeclaration d hd).2

/-! ## What is served -/

/-- The file of the page that is asked for under the path of a resource. -/
def StaticResource.filename (resource : StaticResource) : String :=
  if resource.path = "/" then "index.html" else String.ofList (resource.path.toList.drop 1)

/-- A resource that is made for a file: it is found under the file's name, and its data and
length are the constants that are declared for the file. -/
structure StaticResource.Serves (resource : StaticResource) (file : AssetFile) : Prop where
  filename : resource.filename = file.filename
  data : resource.staticData = file.varName
  len : resource.staticDataLen.toList = file.varName.toList ++ "_len".toList

/-- Each resource of the page is made for a file. -/
theorem pageResources_serve : ∀ resource ∈ pageResources, ∃ file ∈ files, resource.Serves file := by
  intro resource hresource
  simp only [pageResources, List.mem_cons, List.not_mem_nil, or_false] at hresource
  rcases hresource with rfl | rfl | rfl
  · exact ⟨⟨"index.html", "index_html_gz", "text/html"⟩, by decide, by decide, rfl, by decide⟩
  · exact ⟨⟨"app.js", "app_js_gz", "application/javascript"⟩, by decide, by decide, rfl, by decide⟩
  · exact ⟨⟨"style.css", "style_css_gz", "text/css"⟩, by decide, by decide, rfl, by decide⟩

/-- Files with the same constant are the same. -/
theorem varName_injective : ∀ file ∈ files, ∀ other ∈ files,
    other.varName.toList = file.varName.toList → other = file := by
  decide

/-- What only the part for one element holds is found there. -/
theorem findSome?_flatMap_of_unique {α β γ : Type*} {f : β → Option γ} {g : α → List β}
    {xs : List α} {a : α} (ha : a ∈ xs) (h : ∀ x ∈ xs, x ≠ a → (g x).findSome? f = none) :
    (xs.flatMap g).findSome? f = (g a).findSome? f := by
  induction xs with
  | nil => cases ha
  | cons x xs ih =>
    obtain ⟨hx, hxs⟩ := List.forall_mem_cons.mp h
    rw [List.flatMap_cons, List.findSome?_append]
    by_cases hmem : a ∈ xs
    · rw [ih hmem hxs]
      by_cases hxa : x = a
      · rw [hxa, Option.or_self]
      · rw [hx hxa, Option.none_or]
    · obtain rfl : a = x := (List.mem_cons.mp ha).resolve_right hmem
      have hrest : (xs.flatMap g).findSome? f = none := by
        rw [List.findSome?_eq_none_iff]
        intro b hb
        obtain ⟨x, hx, hb⟩ := List.mem_flatMap.mp hb
        have hnone := hxs x hx fun hxa => hmem (hxa ▸ hx)
        exact List.findSome?_eq_none_iff.mp hnone b hb
      rw [hrest, Option.or_none]

/-- What only the declarations for one file hold is found there. -/
theorem findSome?_headerDeclarations {β : Type*} {f : Constant → Option β}
    (disk : String → Option FoundFile) {file : AssetFile} (hfile : file ∈ files)
    (hother : ∀ other ∈ files, other ≠ file → ∀ found,
      ((fileDeclarations other found).map Prod.snd).findSome? f = none) :
    ((headerDeclarations disk).map Prod.snd).findSome? f =
      (disk file.filename).bind fun found =>
        ((fileDeclarations file found).map Prod.snd).findSome? f := by
  rw [headerDeclarations, List.map_flatMap, findSome?_flatMap_of_unique hfile]
  · cases disk file.filename <;> rfl
  · intro other hmem hne
    cases disk other.filename with
    | none => rfl
    | some found => exact hother other hmem hne found

/-- A resource that is made for a file sends what `gzip` made of this file. -/
theorem StaticResource.Serves.body_eq {resource : StaticResource} {file : AssetFile}
    (h : resource.Serves file) (hfile : file ∈ files) (disk : String → Option FoundFile) :
    resource.body ((headerDeclarations disk).map Prod.snd) =
      (disk file.filename).map FoundFile.compressed := by
  have hname : ∀ other ∈ files, other ≠ file → file.varName.toList ≠ other.varName.toList :=
    fun other hother hne heq => hne (varName_injective file hfile other hother heq.symm)
  have hdata := findSome?_headerDeclarations (f := arrayNamed resource.staticData) disk hfile
    (by
      intro other hother hne found
      have hdiff := (hname other hother hne).symm
      simp [fileDeclarations, arrayNamed, h.data, hdiff])
  have hlen := findSome?_headerDeclarations (f := scalarNamed resource.staticDataLen) disk hfile
    (by
      intro other hother hne found
      have hdiff := (hname other hother hne).symm
      simp [fileDeclarations, scalarNamed, h.len, hdiff])
  rw [StaticResource.body, hdata, hlen]
  cases disk file.filename with
  | none => rfl
  | some found =>
    have hbytes : ((fileDeclarations file found).map Prod.snd).findSome?
        (arrayNamed resource.staticData) = some found.compressed := by
      have hback : UInt8.ofNat ∘ UInt8.toNat = id := funext fun byte => UInt8.ofNat_toNat
      simp [fileDeclarations, arrayNamed, h.data, hback]
    have hlength : ((fileDeclarations file found).map Prod.snd).findSome?
        (scalarNamed resource.staticDataLen) = some found.compressed.length := by
      simp [fileDeclarations, scalarNamed, h.len, List.findSome?_cons]
    simp [hbytes, hlength]

/-- **Serving the page**: when the text that the script writes is built into the program, each
resource of the page sends exactly what `gzip` made of its file, in its full length; if the
script has not found the file, the constants of the resource are not declared. -/
theorem page_files_served (disk : String → Option FoundFile) :
    ∃ declared, constants (generateHeader disk) = some declared ∧
      ∀ resource ∈ pageResources,
        resource.body declared = (disk resource.filename).map FoundFile.compressed := by
  refine ⟨_, constants_generateHeader disk, ?_⟩
  intro resource hresource
  obtain ⟨file, hfile, hserves⟩ := pageResources_serve resource hresource
  rw [hserves.filename, hserves.body_eq hfile]

end LedMatrix
