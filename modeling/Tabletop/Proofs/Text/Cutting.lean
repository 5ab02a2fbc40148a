import Tabletop.Text.Width

/-!
# Cutting Texts

Bytes are where texts are cut, but not every byte is a place to cut at: a character takes one to
four of them, and a cut through its middle leaves no text. Nor can a text be cut behind its end, or
from a later byte to an earlier one. Whoever counts in bytes has to show for every cut that none of
this happens.

## Main definitions

* `IsBoundary`: whether no character is cut through at a byte.
* `CanCut`, `cut?`: whether a text can be cut between two bytes, and what is cut out.

## Main results

* `isBoundary_of_append`, `canCut_of_append`, `cut?_of_append`: a text that is put together can be
  cut where it was, and the part is cut out again.
-/

namespace Tabletop

open Text

/-- The bytes of a string are those of its characters. -/
theorem Text.byteSize_toList (s : String) : byteSize s.toList = s.utf8ByteSize := by
  have hofList : ∀ cs : List Char, byteSize cs = (String.ofList cs).utf8ByteSize := by
    intro cs
    induction cs with
    | nil => simp
    | cons c cs ih =>
        rw [byteSize_cons, ih, String.ofList_cons, String.utf8ByteSize_append,
          String.utf8ByteSize_singleton]
  rw [hofList, String.ofList_toList]

/-- A text is no longer than it is wide. -/
theorem Text.length_le_byteSize (cs : List Char) : cs.length ≤ byteSize cs := by
  induction cs with
  | nil => exact Nat.zero_le _
  | cons c cs ih =>
      have hpos := c.utf8Size_pos
      rw [List.length_cons, byteSize_cons]
      omega

/-- There is a **boundary** of characters in front of this byte, or at the end of the text behind
all bytes. -/
abbrev IsBoundary (text : String) (byte : Nat) : Prop :=
  (⟨byte⟩ : String.Pos.Raw).IsValid text

/-- The text **can be cut** from one byte to another. -/
structure CanCut (text : String) (start stop : Nat) : Prop where
  /-- The part does not end before it begins. -/
  start_le_stop : start ≤ stop
  /-- The part begins with a character. -/
  start_boundary : IsBoundary text start
  /-- The part ends with a character. -/
  stop_boundary : IsBoundary text stop

instance (text : String) (start stop : Nat) : Decidable (CanCut text start stop) :=
  decidable_of_iff (start ≤ stop ∧ IsBoundary text start ∧ IsBoundary text stop)
    ⟨fun h => ⟨h.1, h.2.1, h.2.2⟩, fun h => ⟨h.1, h.2, h.3⟩⟩

/-- What is **cut out** of a text from one byte to another, where it can be cut. -/
def cut? (text : String) (start stop : Nat) : Option (List Char) :=
  if h : CanCut text start stop then
    some (text.slice (text.pos ⟨start⟩ h.start_boundary) (text.pos ⟨stop⟩ h.stop_boundary)
      h.start_le_stop).copy.toList
  else none

section Parts

variable {text : String} {before part after : List Char}

/-- Between the parts of a text there is a **boundary**. -/
theorem isBoundary_of_append (h : text.toList = before ++ after) :
    IsBoundary text (byteSize before) := by
  refine String.Pos.Raw.isValid_iff_exists_append.mpr
    ⟨String.ofList before, String.ofList after, ?_, ?_⟩
  · rw [← String.ofList_append, ← h, String.ofList_toList]
  · rw [String.Pos.Raw.ext_iff, String.byteIdx_rawEndPos, ← byteSize_toList, String.toList_ofList]

/-- The boundary between the parts of a text **splits** it into these parts. -/
theorem splits_pos (h : text.toList = before ++ after) :
    (text.pos ⟨byteSize before⟩ (isBoundary_of_append h)).Splits
      (String.ofList before) (String.ofList after) := by
  refine ⟨?_, ?_⟩
  · rw [← String.ofList_append, ← h, String.ofList_toList]
  · rw [String.Pos.Raw.ext_iff, String.byteIdx_rawEndPos, ← byteSize_toList, String.toList_ofList,
      String.offset_pos]

/-- Any part of a text **can be cut out**. -/
theorem canCut_of_append (h : text.toList = before ++ (part ++ after)) :
    CanCut text (byteSize before) (byteSize (before ++ part)) := by
  refine ⟨?_, isBoundary_of_append h, isBoundary_of_append (h.trans (List.append_assoc ..).symm)⟩
  rw [byteSize_append]
  exact Nat.le_add_right _ _

/-- The part of a text that is **cut out** is this part. -/
theorem cut?_of_append (h : text.toList = before ++ (part ++ after)) :
    cut? text (byteSize before) (byteSize (before ++ part)) = some part := by
  have hstart := splits_pos h
  have hstop := splits_pos (h.trans (List.append_assoc ..).symm)
  rw [String.ofList_append] at hstart hstop
  obtain ⟨_, hcopy⟩ := String.copy_slice_eq_iff_splits.mpr ⟨_, _, hstart, hstop⟩
  rw [cut?, dif_pos (canCut_of_append h), hcopy, String.toList_ofList]

/-- A character of two bytes is cut out as a whole or not at all. -/
example : cut? "1d6é" 3 5 = some ['é'] ∧ cut? "1d6é" 3 4 = none := by
  decide +kernel

end Parts

end Tabletop
