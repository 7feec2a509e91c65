import Retrieval.Proofs.Text.Points
import Retrieval.Text.Utf8

/-!
# Well-formed bytes

Bytes are well-formed when scalar values make them up (`WellFormed`). The strict decoder reads these
and no others (`decodeStrict?_eq_none`), and what it reads is written as the same bytes again, one
leading byte order mark apart (`encode_of_decodeStrict?`); a text without a mark is read back
(`decodeStrict?_encode`).
-/

namespace Retrieval

namespace Text

theorem isScalar_toNat (c : Char) : IsScalar c.toNat := by
  rcases c.valid with h | h
  · exact Or.inl h
  · exact Or.inr ⟨by have := h.1; exact this, h.2⟩

theorem ofString_eq (s : String) : ofString s = ofCodePoints (s.toList.map Char.toNat) := by
  rw [ofString, String.foldl_eq_foldl_toList, ofCodePoints, List.foldl_map]

/-- The code points of a string are its characters. -/
theorem codePoints_ofString (s : String) : (ofString s).codePoints = s.toList.map Char.toNat := by
  rw [ofString_eq, codePoints_ofCodePoints]
  intro c hc
  obtain ⟨d, -, rfl⟩ := List.mem_map.mp hc
  exact isScalar_toNat d

end Text

namespace Utf8

open Text (IsScalar)

/-- The bytes are those of scalar values. -/
def WellFormed (bytes : List UInt8) : Prop :=
  ∃ cs : List Nat, (∀ c ∈ cs, IsScalar c) ∧ bytes = cs.flatMap bytesOf

/-- The bytes without one leading byte order mark. -/
def withoutMark : List UInt8 → List UInt8
  | 0xEF :: 0xBB :: 0xBF :: rest => rest
  | bytes => bytes

/-! ## Characters -/

/-- The bytes of a scalar value, by how many there are. -/
theorem bytesOf_scalar {c : Nat} (hc : IsScalar c) :
    bytesOf c =
      if c < 0x80 then [c.toUInt8]
      else if c < 0x800 then [(0xC0 + c / 0x40).toUInt8, (0x80 + c % 0x40).toUInt8]
      else if c < 0x10000 then
        [(0xE0 + c / 0x1000).toUInt8, (0x80 + c / 0x40 % 0x40).toUInt8, (0x80 + c % 0x40).toUInt8]
      else
        [(0xF0 + c / 0x40000).toUInt8, (0x80 + c / 0x1000 % 0x40).toUInt8,
          (0x80 + c / 0x40 % 0x40).toUInt8, (0x80 + c % 0x40).toUInt8] := by
  have hno : ¬ (decide (0xD800 ≤ c) && decide (c < 0xE000)) = true := by
    rw [Bool.and_eq_true, decide_eq_true_eq, decide_eq_true_eq]
    rw [IsScalar] at hc
    omega
  unfold bytesOf
  rw [if_neg hno]

theorem bytesOf_toNat (c : Char) : bytesOf c.toNat = String.utf8EncodeChar c := by
  have hscalar := Text.isScalar_toNat c
  have hlt : c.toNat < 0x110000 := by
    rw [IsScalar] at hscalar
    omega
  rw [bytesOf_scalar hscalar]
  unfold String.utf8EncodeChar
  rw [show c.val.toNat = c.toNat from rfl]
  generalize c.toNat = n at hlt
  dsimp only
  by_cases h1 : n < 0x80
  · rw [if_pos h1, if_pos (by omega)]
  by_cases h2 : n < 0x800
  · rw [if_neg h1, if_pos h2, if_neg (by omega), if_pos (by omega),
      show n / 64 % 32 + 192 = 0xC0 + n / 0x40 by omega,
      show n % 64 + 128 = 0x80 + n % 0x40 by omega]
  by_cases h3 : n < 0x10000
  · rw [if_neg h1, if_neg h2, if_pos h3, if_neg (by omega), if_neg (by omega), if_pos (by omega),
      show n / 4096 % 16 + 224 = 0xE0 + n / 0x1000 by omega,
      show n / 64 % 64 + 128 = 0x80 + n / 0x40 % 0x40 by omega,
      show n % 64 + 128 = 0x80 + n % 0x40 by omega]
  · rw [if_neg h1, if_neg h2, if_neg h3, if_neg (by omega), if_neg (by omega), if_neg (by omega),
      show n / 262144 % 8 + 240 = 0xF0 + n / 0x40000 by omega,
      show n / 4096 % 64 + 128 = 0x80 + n / 0x1000 % 0x40 by omega,
      show n / 64 % 64 + 128 = 0x80 + n / 0x40 % 0x40 by omega,
      show n % 64 + 128 = 0x80 + n % 0x40 by omega]

theorem encode_ofString (s : String) : encode (.ofString s) = s.toByteArray.data.toList := by
  have hbytes : bytesOf ∘ Char.toNat = String.utf8EncodeChar := funext bytesOf_toNat
  rw [encode, Text.codePoints_ofString, List.flatMap_map, ← String.utf8Encode_toList,
    List.utf8Encode, List.toList_data_toByteArray]
  exact congrArg (List.flatMap · s.toList) hbytes

/-- Characters are what scalar values are the numbers of. -/
theorem exists_toNat {cs : List Nat} (h : ∀ c ∈ cs, IsScalar c) :
    ∃ l : List Char, l.map Char.toNat = cs := by
  refine ⟨cs.map Char.ofNat, ?_⟩
  rw [List.map_map]
  refine (List.map_congr_left fun c hc => ?_).trans (List.map_id cs)
  have hvalid : c.isValidChar := by
    rcases h c hc with hlow | hhigh
    · exact Or.inl hlow
    · exact Or.inr ⟨by omega, hhigh.2⟩
  rw [Function.comp_apply, Char.ofNat, dif_pos hvalid]
  rfl

theorem wellFormed_iff {bytes : ByteArray} : WellFormed bytes.data.toList ↔ bytes.IsValidUTF8 := by
  have hflat (l : List Char) : (l.map Char.toNat).flatMap bytesOf = l.utf8Encode.data.toList := by
    rw [List.utf8Encode, List.toList_data_toByteArray, List.flatMap_map]
    exact congrArg (List.flatMap · l) (funext bytesOf_toNat)
  constructor
  · rintro ⟨cs, hcs, hbytes⟩
    obtain ⟨l, rfl⟩ := exists_toNat hcs
    refine ⟨l, ByteArray.ext (Array.toList_inj.mp ?_)⟩
    rw [hbytes, hflat]
  · rintro ⟨l, rfl⟩
    refine ⟨l.map Char.toNat, fun c hc => ?_, (hflat l).symm⟩
    obtain ⟨d, -, rfl⟩ := List.mem_map.mp hc
    exact Text.isScalar_toNat d

/-! ## The byte order mark -/

theorem toNat_toUInt8 {n : Nat} (h : n < 0x100) : n.toUInt8.toNat = n :=
  UInt8.toNat_ofNat_of_lt' h

/-- Only the mark is written with the bytes of the mark. -/
theorem eq_byteOrderMark {c : Nat} (hc : IsScalar c) {rest more : List UInt8}
    (h : bytesOf c ++ rest = 0xEF :: 0xBB :: 0xBF :: more) : c = byteOrderMark := by
  have hlt : c < 0x110000 := by
    rw [IsScalar] at hc
    omega
  rw [bytesOf_scalar hc] at h
  by_cases h1 : c < 0x80
  · rw [if_pos h1] at h
    have hfirst := congrArg UInt8.toNat (List.cons.inj h).1
    rw [toNat_toUInt8 (by omega), show (0xEF : UInt8).toNat = 0xEF from rfl] at hfirst
    omega
  by_cases h2 : c < 0x800
  · rw [if_neg h1, if_pos h2] at h
    have hfirst := congrArg UInt8.toNat (List.cons.inj h).1
    rw [toNat_toUInt8 (by omega), show (0xEF : UInt8).toNat = 0xEF from rfl] at hfirst
    omega
  by_cases h3 : c < 0x10000
  · rw [if_neg h1, if_neg h2, if_pos h3] at h
    obtain ⟨hfirst, h⟩ := List.cons.inj h
    obtain ⟨hsecond, h⟩ := List.cons.inj h
    have hthird := congrArg UInt8.toNat (List.cons.inj h).1
    replace hfirst := congrArg UInt8.toNat hfirst
    replace hsecond := congrArg UInt8.toNat hsecond
    rw [toNat_toUInt8 (by omega)] at hfirst hsecond hthird
    rw [show (0xEF : UInt8).toNat = 0xEF from rfl] at hfirst
    rw [show (0xBB : UInt8).toNat = 0xBB from rfl] at hsecond
    rw [show (0xBF : UInt8).toNat = 0xBF from rfl] at hthird
    rw [byteOrderMark]
    omega
  · rw [if_neg h1, if_neg h2, if_neg h3] at h
    have hfirst := congrArg UInt8.toNat (List.cons.inj h).1
    rw [toNat_toUInt8 (by omega), show (0xEF : UInt8).toNat = 0xEF from rfl] at hfirst
    omega

theorem withoutMark_of_ne {bytes : List UInt8} (h : ∀ rest, bytes ≠ 0xEF :: 0xBB :: 0xBF :: rest) :
    withoutMark bytes = bytes := by
  unfold withoutMark
  split
  · next rest => exact absurd rfl (h rest)
  · rfl

/-- The string without one leading byte order mark. -/
def dropMark (s : String) : String :=
  match s.toList with
  | c :: rest => if c.toNat == byteOrderMark then String.ofList rest else s
  | [] => s

theorem encode_dropMark (s : String) :
    encode (.ofString (dropMark s)) = withoutMark (encode (.ofString s)) := by
  have hencode (s : String) : encode (.ofString s) = (s.toList.map Char.toNat).flatMap bytesOf := by
    rw [encode, Text.codePoints_ofString]
  unfold dropMark
  rw [hencode s]
  split
  · next c rest heq =>
    rw [heq, List.map_cons, List.flatMap_cons]
    by_cases hc : c.toNat = byteOrderMark
    · rw [if_pos (beq_iff_eq.mpr hc), hc, hencode, String.toList_ofList]
      rfl
    · rw [if_neg (fun h => hc (beq_iff_eq.mp h)), hencode, heq, List.map_cons, List.flatMap_cons]
      symm
      exact withoutMark_of_ne fun more h => hc (eq_byteOrderMark (Text.isScalar_toNat c) h)
  · next heq =>
    rw [hencode, heq]
    rfl

/-! ## Strict decoding -/

theorem decodeStrict?_eq (bytes : ByteArray) :
    decodeStrict? bytes = (String.fromUTF8? bytes).map dropMark := rfl

theorem decodeStrict?_eq_none {bytes : ByteArray} :
    decodeStrict? bytes = none ↔ ¬ WellFormed bytes.data.toList := by
  rw [decodeStrict?_eq, Option.map_eq_none_iff, wellFormed_iff, String.fromUTF8?]
  split
  · next h => simp [h]
  · next h => simp [h]

/-- What is decoded is written as the same bytes, without the mark. -/
theorem encode_of_decodeStrict? {bytes : ByteArray} {s : String} (h : decodeStrict? bytes = some s) :
    encode (.ofString s) = withoutMark bytes.data.toList := by
  rw [decodeStrict?_eq, String.fromUTF8?] at h
  split at h
  · next hvalid =>
    obtain rfl := Option.some.inj h
    rw [encode_dropMark, encode_ofString]
    rfl
  · cases h

/-- A string that does not begin with a mark is read back from its bytes. -/
theorem decodeStrict?_encode {bytes : ByteArray} {s : String}
    (hbytes : bytes.data.toList = encode (.ofString s))
    (hmark : ∀ c ∈ s.toList.head?, c.toNat ≠ byteOrderMark) : decodeStrict? bytes = some s := by
  have heq : bytes = s.toByteArray := by
    apply ByteArray.ext
    rw [← Array.toList_inj, hbytes, encode_ofString]
  have hdrop : dropMark s = s := by
    unfold dropMark
    split
    · next c rest hs =>
      rw [if_neg fun h => hmark c (by rw [hs]; rfl) (beq_iff_eq.mp h)]
    · rfl
  rw [decodeStrict?_eq, heq, String.fromUTF8?, dif_pos s.isValidUTF8, Option.map_some]
  exact congrArg some hdrop

end Utf8
end Retrieval
