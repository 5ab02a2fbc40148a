import Mathlib.Tactic.SplitIfs

/-!
# The Bytes of Texts

Texts stand in paths as their UTF-8 bytes, and lists of names are sorted by them. The bytes
determine the text, those of ASCII characters are the characters themselves, and **the order of
the bytes is that of the characters**: of two characters the smaller one has a smaller byte where
their encodings first differ, so nothing that comes after them can turn the order around.

## Main results

* `fromUTF8?_toList`: the bytes of a text determine it.
* `toUTF8_toList_ascii`: the bytes of ASCII characters.
* `lt_iff_utf8_lt`: texts are ordered like their bytes.
-/

namespace Tabletop

/-! ### Texts and their bytes -/

/-- Reading the bytes of an array one after another gives **its bytes**. -/
theorem toList_loop_eq (bytes : ByteArray) (i : Nat) (before : List UInt8) :
    ByteArray.toList.loop bytes i before = before.reverse ++ bytes.data.toList.drop i := by
  have hsize : bytes.data.toList.length = bytes.size := bytes.data.length_toList
  induction h : bytes.size - i generalizing i before with
  | zero =>
      rw [ByteArray.toList.loop, if_neg (by omega), List.drop_eq_nil_of_le (by omega),
        List.append_nil]
  | succ n ih =>
      have hi : i < bytes.data.toList.length := by omega
      have hbyte : bytes.get! i = bytes.data.toList[i] :=
        getElem!_pos bytes.data i (by simpa using hi)
      rw [ByteArray.toList.loop, if_pos (by omega), ih _ _ (by omega), hbyte,
        List.drop_eq_getElem_cons hi, List.reverse_cons, List.append_assoc, List.singleton_append]

/-- The bytes of a text are those of its UTF-8 form. -/
theorem toUTF8_toList (text : String) : text.toUTF8.toList = text.toByteArray.data.toList :=
  toList_loop_eq text.toByteArray 0 []

/-- The bytes of a text **determine** it. -/
theorem fromUTF8?_toList (text : String) :
    String.fromUTF8? ⟨text.toUTF8.toList.toArray⟩ = some text := by
  rw [toUTF8_toList, Array.toArray_toList, String.fromUTF8?, dif_pos text.isValidUTF8]
  rfl

/-- What does not come after an ASCII character is **one itself**. -/
theorem ascii_of_le {c last : Char} (h : c ≤ last) (hlast : last.toNat < 128) : c.toNat < 128 :=
  Nat.lt_of_le_of_lt h hlast

/-- An ASCII character as a byte. -/
def asciiByte (c : Char) : UInt8 :=
  c.val.toUInt8

/-- The character of an ASCII byte. -/
theorem ofNat_asciiByte {c : Char} (h : c.toNat < 128) : Char.ofNat (asciiByte c).toNat = c := by
  have hbyte : (asciiByte c).toNat = c.toNat := by
    rw [asciiByte, UInt32.toNat_toUInt8]
    exact Nat.mod_eq_of_lt (by change c.toNat < 256; omega)
  rw [hbyte, Char.ofNat_toNat]

/-- The bytes of a text of ASCII characters are **its characters**. -/
theorem toUTF8_toList_ascii {text : List Char} (h : ∀ c ∈ text, c.toNat < 128) :
    (String.ofList text).toUTF8.toList = text.map asciiByte := by
  rw [toUTF8_toList, String.toByteArray_ofList]
  induction text with
  | nil => rfl
  | cons c text ih =>
      have hsize : c.utf8Size = 1 :=
        Char.utf8Size_eq_one_iff.mpr
          (UInt32.le_iff_toNat_le.mpr (Nat.le_of_lt_succ (h c List.mem_cons_self)))
      rw [List.utf8Encode_cons, List.utf8Encode_singleton, String.utf8EncodeChar_eq_singleton hsize,
        ByteArray.data_append, List.data_toByteArray, Array.toList_append,
        ih fun c hc => h c (List.mem_cons_of_mem _ hc)]
      rfl

/-! ### The order of bytes -/

/-- The encoding of a smaller character is **smaller at the first byte that differs**, whatever
comes after. -/
theorem utf8EncodeChar_append_lt {c d : Char} (h : c < d) (s t : List UInt8) :
    String.utf8EncodeChar c ++ s < String.utf8EncodeChar d ++ t := by
  have hlt : c.val.toNat < d.val.toNat := UInt32.lt_iff_toNat_lt.mp (Char.lt_def.mp h)
  have hd : d.val.toNat < 1114112 := by
    have hvalid := d.valid
    simp only [UInt32.isValidChar, Nat.isValidChar] at hvalid
    omega
  unfold String.utf8EncodeChar
  generalize c.val.toNat = v at hlt ⊢
  generalize d.val.toNat = w at hlt hd ⊢
  -- One case for each pair of lengths. Of different lengths the first bytes differ.
  dsimp only
  split_ifs <;>
    simp (disch := omega) only [List.cons_append, List.nil_append, List.cons_lt_cons_iff,
      UInt8.lt_iff_toNat_lt, ← UInt8.toNat_inj, UInt8.toNat_ofNat', Nat.mod_eq_of_lt] <;>
    omega

/-- A smaller list of characters has a smaller encoding. -/
theorem flatMap_utf8EncodeChar_lt {s t : List Char} (h : s < t) :
    s.flatMap String.utf8EncodeChar < t.flatMap String.utf8EncodeChar := by
  induction s generalizing t with
  | nil =>
      cases t with
      | nil => exact absurd h (List.lt_irrefl [])
      | cons d t =>
          cases hbytes : String.utf8EncodeChar d with
          | nil => exact absurd hbytes String.utf8EncodeChar_ne_nil
          | cons b bytes =>
              rw [List.flatMap_cons, hbytes]
              exact List.nil_lt_cons _ _
  | cons c s ih =>
      cases t with
      | nil => exact absurd h (List.not_lt_nil _)
      | cons d t =>
          rw [List.flatMap_cons, List.flatMap_cons]
          rcases List.cons_lt_cons_iff.mp h with hlt | ⟨rfl, hlt⟩
          · exact utf8EncodeChar_append_lt hlt _ _
          · exact List.append_left_lt (ih hlt)

/-- **Texts are ordered like their bytes.** -/
theorem lt_iff_utf8_lt {a b : String} : a < b ↔ a.toUTF8.toList < b.toUTF8.toList := by
  have hbytes : ∀ text : String,
      text.toUTF8.toList = text.toList.flatMap String.utf8EncodeChar := by
    intro text
    rw [toUTF8_toList, ← String.utf8Encode_toList, List.utf8Encode, List.data_toByteArray]
  have hlt : ∀ {a b : String}, a < b → a.toUTF8.toList < b.toUTF8.toList := by
    intro a b h
    rw [hbytes, hbytes]
    exact flatMap_utf8EncodeChar_lt h
  refine ⟨hlt, fun h => ?_⟩
  by_cases hgt : b < a
  · exact absurd (hlt hgt) (List.lt_asymm h)
  · by_cases hless : a < b
    · exact hless
    · rw [String.le_antisymm (String.not_lt.mp hgt) (String.not_lt.mp hless)] at h
      exact absurd h (List.lt_irrefl _)

end Tabletop
