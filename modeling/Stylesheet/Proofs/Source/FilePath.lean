import Stylesheet.Proofs.Source.Wire
import Stylesheet.Proofs.Text.Utf8

/-!
# The URLs of paths

Every path has a URL (`Url.exists_ofPath`). Percent-encoding loses nothing, but malformed bytes of a
path are replaced before it, so paths share a URL exactly if they have the same text
(`Url.ofPath_eq_iff`), and a path that is a text comes back from its URL (`Url.toPath?_ofPath`).
-/

namespace Stylesheet

namespace Url

/-! ## Percent-encoding -/

theorem hexValue?_hexDigit : ∀ n < 16, hexValue? (hexDigit n) = some n := by decide

theorem isHexDigit_hexDigit : ∀ n < 16, Reference.isHexDigit (hexDigit n) = true := by decide

/-- A byte that stands for itself is one character, other than the mark of an octet. -/
theorem utf8EncodeChar_of_isPlain : ∀ n < 256,
    (Reference.isUnreserved (Char.ofNat n) || Char.ofNat n == '/') = true →
      String.utf8EncodeChar (Char.ofNat n) = [UInt8.ofNat n] ∧ Char.ofNat n ≠ '%' := by
  decide +kernel

/-- A byte stands for itself or is written as an octet. -/
theorem encodeByte_cases (b : UInt8) :
    (∃ c, encodeByte b = [c] ∧ String.utf8EncodeChar c = [b] ∧ c ≠ '%' ∧
        (Reference.isUnreserved c || c == '/') = true) ∨
      ∃ high < 16, ∃ low < 16, 16 * high + low = b.toNat ∧
        encodeByte b = ['%', hexDigit high, hexDigit low] := by
  have hb : b.toNat < 256 := b.toNat_lt
  by_cases hplain : (Reference.isUnreserved (Char.ofNat b.toNat) ||
      Char.ofNat b.toNat == '/') = true
  · obtain ⟨hbyte, hc⟩ := utf8EncodeChar_of_isPlain b.toNat hb hplain
    rw [UInt8.ofNat_toNat] at hbyte
    exact .inl ⟨_, if_pos hplain, hbyte, hc, hplain⟩
  · exact .inr ⟨b.toNat / 16, by omega, b.toNat % 16, by omega, by omega, if_neg hplain⟩

theorem decodeBytes_cons_of_ne {c : Char} (h : c ≠ '%') (s : List Char) :
    decodeBytes (c :: s) = String.utf8EncodeChar c ++ decodeBytes s := by
  rw [decodeBytes]
  intro _ _ _ hc _
  exact h hc

theorem decodeBytes_encodeByte (b : UInt8) (s : List Char) :
    decodeBytes (encodeByte b ++ s) = b :: decodeBytes s := by
  obtain ⟨c, hencode, hbyte, hc, _⟩ | ⟨high, hhigh, low, hlow, hsum, hencode⟩ := encodeByte_cases b
  · rw [hencode, List.singleton_append, decodeBytes_cons_of_ne hc, hbyte, List.singleton_append]
  · simp only [hencode, List.cons_append, List.nil_append, decodeBytes, hexValue?_hexDigit _ hhigh,
      hexValue?_hexDigit _ hlow, hsum, UInt8.ofNat_toNat]

theorem decodeBytes_flatMap_encodeByte (bytes : List UInt8) :
    decodeBytes (bytes.flatMap encodeByte) = bytes := by
  induction bytes with
  | nil => rfl
  | cons b bytes ih => rw [List.flatMap_cons, decodeBytes_encodeByte, ih]

/-! ## Reading the URL of a path -/

theorem readRun_flatMap_encodeByte (bytes : List UInt8) (index : Nat) :
    Reference.readRun Reference.isPathChar index (bytes.flatMap encodeByte) =
      .ok (bytes.flatMap encodeByte, []) := by
  induction bytes generalizing index with
  | nil => rfl
  | cons b bytes ih =>
    rw [List.flatMap_cons]
    obtain ⟨c, hencode, _, hc, hplain⟩ | ⟨high, hhigh, low, hlow, _, hencode⟩ :=
      encodeByte_cases b
    · have hpath : Reference.isPathChar c = true := by
        simp only [Bool.or_eq_true] at hplain
        rcases hplain with h | h <;> simp [Reference.isPathChar, Reference.isNameChar, h]
      rw [hencode, List.singleton_append, Reference.readRun]
      · simp [hc, hpath, ih, bind, Except.bind, pure, Except.pure]
      · intro _ _ _ h _
        exact hc h
    · rw [hencode]
      simp [Reference.readRun, isHexDigit_hexDigit _ hhigh, isHexDigit_hexDigit _ hlow, ih, bind,
        Except.bind, pure, Except.pure]

theorem encodeByte_slash : encodeByte 0x2F = ['/'] := by decide +kernel

theorem utf8EncodeChar_slash : String.utf8EncodeChar '/' = [0x2F] := by decide +kernel

/-- A path from the root. -/
def rooted (bytes : List UInt8) : List UInt8 :=
  if bytes.head? = some 0x2F then bytes else 0x2F :: bytes

theorem exists_rooted (bytes : List UInt8) : ∃ rest, rooted bytes = 0x2F :: rest := by
  rw [rooted]
  split
  · rename_i hhead
    exact List.head?_eq_some_iff.mp hhead
  · exact ⟨_, rfl⟩

theorem head?_flatMap_encodeByte (bytes : List UInt8) :
    (bytes.flatMap encodeByte).head? = some '/' ↔ bytes.head? = some 0x2F := by
  cases bytes with
  | nil => simp
  | cons b bytes =>
    have hslash : ∀ n < 256, (encodeByte (UInt8.ofNat n)).head? = some '/' ↔ n = 0x2F := by
      decide +kernel
    have hb := hslash b.toNat b.toNat_lt
    rw [UInt8.ofNat_toNat] at hb
    have hne : encodeByte b ≠ [] := by
      obtain ⟨c, hencode, _⟩ | ⟨high, _, low, _, _, hencode⟩ := encodeByte_cases b <;>
        simp [hencode]
    rw [List.flatMap_cons, List.head?_append_of_ne_nil _ hne, hb, List.head?_cons]
    simp [← UInt8.toNat_inj]

theorem toList_pathText (path : List UInt8) :
    (pathText path).toList = fileMark.toList ++
      (rooted (Text.Utf8.encode (Text.Utf8.decodeLossy path))).flatMap encodeByte := by
  simp only [pathText, rooted, head?_flatMap_encodeByte, String.toList_append, String.toList_ofList]
  split
  · rfl
  · rw [List.flatMap_cons, encodeByte_slash, List.singleton_append]

theorem parse_fileMark {s : List Char}
    (h : ∀ index, Reference.readRun Reference.isPathChar index ('/' :: s) = .ok ('/' :: s, [])) :
    Reference.parse (fileMark.toList ++ '/' :: s) =
      .ok ⟨some "file".toList, some [], '/' :: s, none, none⟩ := by
  have hparse : Reference.parse (fileMark.toList ++ '/' :: s) =
      Reference.readHierarchy (some "file".toList) 5 ('/' :: '/' :: '/' :: s) := rfl
  have hauthority : Reference.readAuthority 7 ('/' :: s) = .ok ([], '/' :: s) := rfl
  rw [hparse, Reference.readHierarchy]
  simp only [hauthority, bind, Except.bind, List.length_nil, h]
  rfl

/-- Every path has a URL. -/
theorem exists_ofPath (path : List UInt8) :
    ∃ url, ofPath path = .ok url ∧ url.text = pathText path := by
  obtain ⟨rest, hrest⟩ := exists_rooted (Text.Utf8.encode (Text.Utf8.decodeLossy path))
  have htext : (pathText path).toList = fileMark.toList ++ '/' :: rest.flatMap encodeByte := by
    rw [toList_pathText, hrest, List.flatMap_cons, encodeByte_slash, List.singleton_append]
  have hparse := parse_fileMark (s := rest.flatMap encodeByte) fun index => by
    have hrun := readRun_flatMap_encodeByte (0x2F :: rest) index
    rwa [List.flatMap_cons, encodeByte_slash, List.singleton_append] at hrun
  have hok : (Reference.parseAbsolute (pathText path)).isOk = true := by
    rw [Reference.parseAbsolute, htext, hparse]
    rfl
  have hurl : ofPath path = .ok ⟨pathText path, hok⟩ := parse_text ⟨pathText path, hok⟩
  exact ⟨_, hurl, rfl⟩

/-! ## Paths with one URL -/

/-- A path is absolute if it starts at the root. -/
def IsAbsolute (path : List UInt8) : Prop := path.head? = some 0x2F

theorem rooted_of_isAbsolute {path : List UInt8} (h : IsAbsolute path) :
    rooted (Text.Utf8.encode (Text.Utf8.decodeLossy path)) =
      Text.Utf8.encode (Text.Utf8.decodeLossy path) := by
  obtain ⟨rest, rfl⟩ := List.head?_eq_some_iff.mp h
  have hread : Text.Utf8.read none (0x2F :: rest) = some '/' :: Text.Utf8.read none rest := rfl
  rw [rooted, if_pos]
  simp [Text.Utf8.decodeLossy, hread, Text.Utf8.encode, utf8EncodeChar_slash]

/-- Malformed bytes apart, an absolute path can be told from its URL. -/
theorem ofPath_eq_iff {path path' : List UInt8} (h : IsAbsolute path) (h' : IsAbsolute path') :
    ofPath path = ofPath path' ↔
      Text.Utf8.decodeLossy path = Text.Utf8.decodeLossy path' := by
  constructor
  · intro heq
    obtain ⟨url, hurl, htext⟩ := exists_ofPath path
    obtain ⟨url', hurl', htext'⟩ := exists_ofPath path'
    obtain rfl := Except.ok.inj (hurl.symm.trans (heq.trans hurl'))
    have hchars := congrArg String.toList (htext.symm.trans htext')
    rw [toList_pathText, toList_pathText, rooted_of_isAbsolute h, rooted_of_isAbsolute h'] at hchars
    have hdecoded := congrArg decodeBytes (List.append_cancel_left hchars)
    rw [decodeBytes_flatMap_encodeByte, decodeBytes_flatMap_encodeByte] at hdecoded
    exact Text.Utf8.encode_injective hdecoded
  · intro heq
    rw [ofPath, ofPath, pathText, pathText, heq]

/-! ## The way back -/

theorem stripFront?_append (mark s : List Char) : stripFront? mark (mark ++ s) = some s := by
  rw [stripFront?, if_pos (by simp), List.drop_left]

theorem head?_encode_iff (s : String) :
    (Text.Utf8.encode s).head? = some 0x2F ↔ s.toList.head? = some '/' := by
  constructor
  · intro h
    obtain ⟨rest, hrest⟩ := List.head?_eq_some_iff.mp h
    have hread : Text.Utf8.read none (0x2F :: rest) = some '/' :: Text.Utf8.read none rest := rfl
    rw [← hrest, Text.Utf8.read_encode] at hread
    have hhead := congrArg List.head? hread
    simpa using hhead
  · intro h
    obtain ⟨rest, hrest⟩ := List.head?_eq_some_iff.mp h
    rw [Text.Utf8.encode, hrest, List.flatMap_cons, utf8EncodeChar_slash]
    rfl

/-- A path in front of which a slash is put if it does not start with one. -/
def rootedText (path : String) : String :=
  if path.toList.head? = some '/' then path else "/" ++ path

theorem rooted_encode (path : String) :
    rooted (Text.Utf8.encode path) = Text.Utf8.encode (rootedText path) := by
  simp only [rooted, rootedText, head?_encode_iff]
  split
  · rfl
  · simp [Text.Utf8.encode, utf8EncodeChar_slash]

/-- Every path that is a text has a URL, and comes back from it, from the root. -/
theorem toPath?_ofPath (path : String) :
    ∃ url, ofPath (Text.Utf8.encode path) = .ok url ∧ parse url.text = .ok url ∧
      url.isFile = true ∧ url.toPath? = some (rootedText path) := by
  obtain ⟨url, hurl, htext⟩ := exists_ofPath (Text.Utf8.encode path)
  obtain ⟨rest, hrest⟩ := exists_rooted (Text.Utf8.encode path)
  have hencoded : (rooted (Text.Utf8.encode path)).flatMap encodeByte =
      '/' :: rest.flatMap encodeByte := by
    rw [hrest, List.flatMap_cons, encodeByte_slash, List.singleton_append]
  have hchars : url.text.toList = fileMark.toList ++ '/' :: rest.flatMap encodeByte := by
    rw [htext, toList_pathText, Text.Utf8.decodeLossy_encode, hencoded]
  have hbytes : decodeBytes ('/' :: rest.flatMap encodeByte) =
      Text.Utf8.encode (rootedText path) := by
    rw [← hencoded, decodeBytes_flatMap_encodeByte, rooted_encode]
  refine ⟨url, hurl, parse_text url, ?_, ?_⟩
  · rw [isFile, hchars]
    rfl
  · rw [toPath?, hchars, stripFront?_append, ← Text.Utf8.decodeLossy_encode (rootedText path),
      ← hbytes]
    rfl

end Url

end Stylesheet
