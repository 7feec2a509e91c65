import Retrieval.Proofs.Chunk.Carry
import Retrieval.Proofs.Text.Strays

/-!
# What carried bytes cost

With one token for each byte, the last `k` bytes of a chunk may begin inside a character. Each byte
that is left of it is read as a replacement character, so they end the chunk only where the source
has that character at this place (`Chunk.Carries.cut`). What is repeated then costs two more for each
of these bytes than the bytes that were counted: `split_carries_bytes`. A text without a replacement
character repeats no more than the overlap.
-/

namespace Retrieval

namespace Tokenizer

theorem count_byte (t : Text) : byte.count t = (Utf8.encode t).length := by
  rw [count]
  split
  · next hempty =>
    have hnil : t = #[] := by simpa using hempty
    rw [hnil]
    rfl
  · rfl

end Tokenizer

namespace Text

variable {t : Text} {cs : List Nat}

/-- Trimming takes whole code points away. -/
theorem codePoints_trimStart (t : Text) :
    ∃ blanks, t.codePoints = blanks ++ t.trimStart.codePoints :=
  ⟨_, (boundary_skipBlank t).codePoints.symm⟩

theorem length_encode_trimStart_le (t : Text) :
    (Utf8.encode t.trimStart).length ≤ (Utf8.encode t).length := by
  obtain ⟨blanks, hsplit⟩ := codePoints_trimStart t
  rw [Utf8.encode, Utf8.encode, hsplit, List.flatMap_append, List.length_append]
  exact Nat.le_add_left ..

theorem lt_of_mem_codePoints {c : Nat} (hc : c ∈ t.codePoints) : c < 0x110000 :=
  (separate_codePoints t).lt c hc

theorem getElem?_of_slice {a b i : Nat} {u : UInt16} (h : (t.slice a b)[i]? = some u) :
    t[a + i]? = some u := by
  rw [slice, Array.getElem?_extract] at h
  split at h
  · exact h
  · cases h

/-- The last unit of a code point is the code point or a second half. -/
theorem getLast?_unitsOf {c : Nat} (hc : c < 0x110000) :
    ∃ u, (unitsOf c).getLast? = some u ∧ (u.toNat = c ∨ isTrailing u = true) := by
  rcases unitsOf_cases_of_lt hc with ⟨u, hunits, hu⟩ | ⟨-, _, v, hunits, -, hv, -⟩
  · exact ⟨u, by rw [hunits]; rfl, Or.inl hu⟩
  · exact ⟨v, by rw [hunits]; rfl, Or.inr hv⟩

/-- Half of a pair is one unit, and so is the replacement character. -/
theorem length_unitsOf_scalarOf (c : Nat) :
    (unitsOf (Utf8.scalarOf c)).length = (unitsOf c).length := by
  unfold Utf8.scalarOf
  split
  · next h =>
    simp only [Bool.and_eq_true, decide_eq_true_eq] at h
    rw [unitsOf, unitsOf, if_pos (by decide), if_pos (by omega)]
    rfl
  · rfl

theorem length_flatMap_scalarOf (cs : List Nat) :
    ((cs.map Utf8.scalarOf).flatMap unitsOf).length = (cs.flatMap unitsOf).length := by
  induction cs with
  | nil => rfl
  | cons c cs ih =>
    rw [List.map_cons, List.flatMap_cons, List.flatMap_cons, List.length_append, List.length_append,
      length_unitsOf_scalarOf, ih]

end Text

namespace Chunk

variable {src : Text} {w : Window} {p c : Chunk} {size stop k : Nat}

def lastBytes (p : Chunk) (k : Nat) : List UInt8 :=
  (Utf8.encode p.text).drop ((Utf8.encode p.text).length - k)

theorem length_lastBytes (hk : k ≤ (Utf8.encode p.text).length) : (p.lastBytes k).length = k := by
  rw [lastBytes, List.length_drop]
  omega

theorem tail_byte (p : Chunk) (k : Nat) :
    p.tail .byte k = (Text.ofCodePoints (Utf8.decode (p.lastBytes k))).trimStart := rfl

/-- A tail that begins between code points costs no more than its bytes. -/
theorem cost_of_whole {back : List Nat} (hback : ∀ c ∈ back, c < 0x110000)
    (hbytes : p.lastBytes k = back.flatMap Utf8.bytesOf) :
    (Utf8.encode (p.tail .byte k)).length ≤ (p.lastBytes k).length := by
  rw [tail_byte, hbytes, Utf8.decode_flatMap hback]
  refine Nat.le_trans (Text.length_encode_trimStart_le _) (Nat.le_of_eq ?_)
  rw [Utf8.encode, Text.codePoints_ofCodePoints fun c hc => Utf8.isScalar_of_mem_map hback hc,
    Utf8.flatMap_scalarOf]

/-- Bytes that continue a character, in front of whole ones, are read as one replacement character
each, and nothing is trimmed. -/
theorem tail_of_cut {strays : List UInt8} {back : List Nat} (hpos : 0 < strays.length)
    (hstrays : ∀ x ∈ strays, Utf8.continues x = true) (hback : ∀ c ∈ back, c < 0x110000)
    (hbytes : p.lastBytes k = strays ++ back.flatMap Utf8.bytesOf) :
    p.tail .byte k = Text.ofCodePoints
      (List.replicate strays.length Utf8.replacement ++ back.map Utf8.scalarOf) := by
  rw [tail_byte, hbytes, Utf8.decode_strays_append hstrays hback]
  obtain ⟨r, hr⟩ : ∃ r, strays.length = r + 1 := ⟨strays.length - 1, by omega⟩
  rw [hr, List.replicate_succ, List.cons_append]
  apply Text.trimStart_of_not_blank
  rw [Text.ofCodePoints_cons, Text.blankAt, Array.getElem?_append_left (by decide)]
  rfl

theorem toList_ofCodePoints_replaced (r : Nat) (cs : List Nat) :
    (Text.ofCodePoints (List.replicate r Utf8.replacement ++ cs)).toList =
      List.replicate r 0xFFFD ++ cs.flatMap Text.unitsOf := by
  rw [Text.ofCodePoints_eq, List.flatMap_append, List.flatMap_replicate,
    show Text.unitsOf Utf8.replacement = [0xFFFD] from rfl, List.flatten_replicate_singleton]

/-- **A tail that begins inside a character** ends the chunk only where this is a replacement
character: its last unit is one, and no half of a pair is. -/
theorem replaced_of_cut {strays : List UInt8} {front back : List Nat} {d : Nat}
    (hcodes : p.text.codePoints = front ++ d :: back) (hpos : 0 < strays.length)
    (hstrays : ∀ x ∈ strays, Utf8.continues x = true)
    (hbytes : p.lastBytes k = strays ++ back.flatMap Utf8.bytesOf)
    (hsuffix : ∃ before, p.text = before ++ p.tail .byte k) : d = Utf8.replacement := by
  have hlt : ∀ c ∈ front ++ d :: back, c < 0x110000 := fun c hc =>
    Text.lt_of_mem_codePoints (hcodes ▸ hc)
  have hback : ∀ c ∈ back, c < 0x110000 := fun c hc => hlt c (by simp [hc])
  obtain ⟨before, hbefore⟩ := hsuffix
  have hunits := congrArg Array.toList hbefore
  rw [Array.toList_append, tail_of_cut hpos hstrays hback hbytes, toList_ofCodePoints_replaced,
    ← Text.flatMap_unitsOf_codePoints, hcodes, List.flatMap_append, List.flatMap_cons,
    ← List.append_assoc, ← List.append_assoc] at hunits
  -- what stands in front of the whole characters ends with the character that is cut
  have hends := congrArg List.getLast?
    (List.append_inj_left' hunits (Text.length_flatMap_scalarOf back).symm)
  obtain ⟨u, hlast, hu⟩ := Text.getLast?_unitsOf (hlt d (by simp))
  rw [List.getLast?_append, List.getLast?_append, hlast, List.getLast?_replicate,
    if_neg (by omega), Option.some_or, Option.some_or, Option.some.injEq] at hends
  rw [hends] at hu
  rcases hu with hu | htrail
  · exact hu.symm
  · exact absurd htrail (by decide)

/-- It costs two more for each byte at its front than the bytes that it was read from. -/
theorem cost_of_cut {strays : List UInt8} {back : List Nat} (hpos : 0 < strays.length)
    (hstrays : ∀ x ∈ strays, Utf8.continues x = true) (hback : ∀ c ∈ back, c < 0x110000)
    (hbytes : p.lastBytes k = strays ++ back.flatMap Utf8.bytesOf) :
    (Utf8.encode (p.tail .byte k)).length = (p.lastBytes k).length + 2 * strays.length := by
  have hscalar : ∀ c ∈ List.replicate strays.length Utf8.replacement ++ back.map Utf8.scalarOf,
      Text.IsScalar c := by
    intro c hc
    rcases List.mem_append.mp hc with hc | hc
    · rw [(List.mem_replicate.mp hc).2]
      decide
    · exact Utf8.isScalar_of_mem_map hback hc
  rw [tail_of_cut hpos hstrays hback hbytes, Utf8.encode, Text.codePoints_ofCodePoints hscalar,
    hbytes, List.flatMap_append, Utf8.flatMap_scalarOf, List.length_append, List.length_append,
    List.flatMap_replicate]
  have hthree : (List.replicate strays.length (Utf8.bytesOf Utf8.replacement)).flatten.length =
      strays.length * 3 := by
    simp [show (Utf8.bytesOf Utf8.replacement).length = 3 from rfl]
  omega

/-- What the last `k` bytes of `p` cost where `c` repeats them: as much at the most, and two more for
each byte at the front that only continues a character. There are two of these at the most, and where
there is one, replacement characters stand in the source. -/
structure CostsBytes (src : Text) (p c : Chunk) (k : Nat) : Prop where
  strays_le : Utf8.strayCount (p.lastBytes k) ≤ 2
  replaced : ∀ x, x < Utf8.strayCount (p.lastBytes k) → src[c.start + x]? = some 0xFFFD
  cost_le : Tokenizer.byte.count (src.slice c.start p.stop) ≤
    k + 2 * Utf8.strayCount (p.lastBytes k)
  cost_eq : 0 < Utf8.strayCount (p.lastBytes k) →
    Tokenizer.byte.count (src.slice c.start p.stop) = k + 2 * Utf8.strayCount (p.lastBytes k)

/-- **One tail**: what it costs, whether or not it begins between code points. -/
theorem Admits.costsBytes (h : Admits .byte src w p c k) (hp : p.Located .byte src)
    (hstart : c.start = p.stop - (p.tail .byte k).size) : CostsBytes src p c k := by
  have hle : k ≤ (Utf8.encode p.text).length := Nat.le_trans h.le (Nat.min_le_right ..)
  have hlength := length_lastBytes hle
  have hslice : src.slice c.start p.stop = p.tail .byte k := by
    rw [hstart]
    exact (hp.slice_tail h.suffix).2
  have hcount : Tokenizer.byte.count (src.slice c.start p.stop) =
      (Utf8.encode (p.tail .byte k)).length := by
    rw [hslice, Tokenizer.count_byte]
  have hcodes : ∀ c ∈ p.text.codePoints, c < 0x110000 := fun c hc => Text.lt_of_mem_codePoints hc
  rcases Utf8.drop_flatMap_cases hcodes ((Utf8.encode p.text).length - k) with
    ⟨front, back, hsplit, hbytes⟩ | ⟨front, d, back, strays, hsplit, hpos, hlt, hstrays, hbytes⟩
  · -- the bytes begin between code points
    have hback : ∀ c ∈ back, c < 0x110000 := fun c hc => hcodes c (by rw [hsplit]; simp [hc])
    have hzero : Utf8.strayCount (p.lastBytes k) = 0 := by
      have hnone := Utf8.strayCount_flatMap hback
      rwa [← hbytes] at hnone
    have hcost := cost_of_whole hback hbytes
    constructor
    · omega
    · intro x hx
      omega
    · omega
    · intro hx
      omega
  · -- they begin inside a replacement character
    have hback : ∀ c ∈ back, c < 0x110000 := fun c hc => hcodes c (by rw [hsplit]; simp [hc])
    have hcount' : Utf8.strayCount (p.lastBytes k) = strays.length := by
      have hall := Utf8.strayCount_append hstrays hback
      rwa [← hbytes] at hall
    have hd := replaced_of_cut hsplit hpos hstrays hbytes h.suffix
    have hcost := cost_of_cut hpos hstrays hback hbytes
    rw [hd, show (Utf8.bytesOf Utf8.replacement).length = 3 from rfl] at hlt
    constructor
    · omega
    · intro x hx
      rw [hcount'] at hx
      apply Text.getElem?_of_slice (b := p.stop)
      rw [hslice, tail_of_cut hpos hstrays hback hbytes, ← Array.getElem?_toList,
        toList_ofCodePoints_replaced, List.getElem?_append_left (by simpa using hx),
        List.getElem?_replicate, if_pos hx]
    · omega
    · intro _
      omega

/-- A chunk that repeats something of `p` does so with the greatest number of bytes. -/
theorem CarriesMost.of_overlap_pos {tok : Tokenizer} (h : CarriesMost tok src w p c)
    (hpos : 0 < c.overlap) :
    ∃ k, IsGreatest {k | Admits tok src w p c k} k ∧ c.start = p.stop - (p.tail tok k).size := by
  rcases h with h | ⟨-, hstart⟩
  · exact h
  · rw [ownStart] at hstart
    omega

end Chunk

/-- **What carried bytes cost**, for every text and window. A chunk repeats the greatest number of last
bytes of the chunk before that may be put in front of it, which is within the overlap. What it repeats
costs no more than these bytes, and two more for each byte at their front that only continues a
character; so it is within the overlap unless it begins with a replacement character. -/
theorem split_carries_bytes (w : Window) (src : Text) :
    ∃ chunks, splitWatched? .never .byte w src = some chunks ∧
      ∀ (i : Nat) (p c : Chunk), chunks[i]? = some p → chunks[i + 1]? = some c → 0 < c.overlap →
        (∃ k, IsGreatest {k | Chunk.Admits .byte src w p c k} k ∧ k ≤ w.overlap ∧
          Chunk.CostsBytes src p c k) ∧
        (src[c.start]? ≠ some 0xFFFD →
          Tokenizer.byte.count (src.slice c.start p.stop) ≤ w.overlap) := by
  refine ⟨split .byte w src, splitWatched?_never .byte w src, fun i p c hp hc hpos => ?_⟩
  have hlocated := (split_inRow .byte w src).located_of_mem (List.mem_of_getElem? hp)
  obtain ⟨k, hk, hstart⟩ := (Chunk.split_carriesMost hp hc).of_overlap_pos hpos
  have hle : k ≤ w.overlap := Nat.le_trans hk.1.le (Nat.min_le_left ..)
  have hcosts := hk.1.costsBytes hlocated hstart
  refine ⟨⟨k, hk, hle, hcosts⟩, fun hno => ?_⟩
  have hcost := hcosts.cost_le
  rcases Nat.eq_zero_or_pos (Utf8.strayCount (p.lastBytes k)) with hzero | hstray
  · omega
  · exact absurd (hcosts.replaced 0 hstray) hno

/-- Nine bytes to a chunk, two of which may repeat: the last two bytes of a replacement character are
read as two of them, which cost six. -/
theorem split_carries_bytes_twice :
    ∃ p c : Chunk,
      splitWatched? .never .byte ⟨9, 2, by decide⟩ #[97, 0xFFFD, 0xFFFD, 32, 98, 98] =
        some [p, c] ∧ 0 < c.overlap ∧
      (∃ k, IsGreatest {k | Chunk.Admits .byte #[97, 0xFFFD, 0xFFFD, 32, 98, 98] ⟨9, 2, by decide⟩
          p c k} k ∧ k ≤ 2 ∧ Chunk.CostsBytes #[97, 0xFFFD, 0xFFFD, 32, 98, 98] p c k) ∧
      Tokenizer.byte.count (Text.slice #[97, 0xFFFD, 0xFFFD, 32, 98, 98] c.start p.stop) = 6 := by
  obtain ⟨chunks, heq, hall⟩ :=
    split_carries_bytes ⟨9, 2, by decide⟩ #[97, 0xFFFD, 0xFFFD, 32, 98, 98]
  have hsplit : splitWatched? .never .byte ⟨9, 2, by decide⟩ #[97, 0xFFFD, 0xFFFD, 32, 98, 98] =
      some [⟨0, #[97, 0xFFFD, 0xFFFD], 7, 0, 3, 0⟩,
        ⟨1, #[0xFFFD, 0xFFFD, 32, 98, 98], 9, 1, 6, 3⟩] := by
    decide +kernel
  rw [hsplit, Option.some.injEq] at heq
  subst heq
  exact ⟨_, _, hsplit, by decide, (hall 0 _ _ rfl rfl (by decide)).1, by decide +kernel⟩

/-- One byte may repeat, and what is repeated costs three: the last byte of a replacement character is
read as the whole of it. -/
theorem split_carries_bytes_over :
    ∃ p c : Chunk,
      splitWatched? .never .byte ⟨7, 1, by decide⟩ #[97, 0xFFFD, 32, 98, 98, 98] = some [p, c] ∧
        0 < c.overlap ∧
        ¬ Tokenizer.byte.count (Text.slice #[97, 0xFFFD, 32, 98, 98, 98] c.start p.stop) ≤ 1 := by
  refine ⟨⟨0, #[97, 0xFFFD], 4, 0, 2, 0⟩, ⟨1, #[0xFFFD, 32, 98, 98, 98], 7, 1, 6, 2⟩, ?_, ?_, ?_⟩
  · decide +kernel
  · decide
  · decide +kernel

end Retrieval
