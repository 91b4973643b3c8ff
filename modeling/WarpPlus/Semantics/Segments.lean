import Mathlib

/-! Cutting a payload into segments of a fixed size, as segmentation offload
does: every segment has `size` elements except the last, which may be shorter.
Size zero means no segmentation, and the payload is one segment.

A payload that is a run of whole segments followed by a tail cuts into the
segments of each part (`segments_append`); this is what an append-only batcher
relies on.
-/

set_option autoImplicit false

namespace Segmentation

variable {α : Type}

/-- `payload` cut into pieces of `size` elements, the last one possibly shorter;
the whole payload when `size` is zero. -/
def segments (size : Nat) (payload : List α) : List (List α) :=
  if size = 0 then [payload]
  else (List.range ((payload.length + size - 1) / size)).map fun t =>
    (payload.drop (size * t)).take size

@[simp] theorem segments_zero (payload : List α) : segments 0 payload = [payload] := rfl

theorem length_le_of_mem_segments {size : Nat} {payload piece : List α}
    (member : piece ∈ segments size payload) : piece.length ≤ payload.length := by
  unfold segments at member
  split at member
  · obtain rfl := List.mem_singleton.mp member
    exact Nat.le_refl _
  · obtain ⟨t, -, rfl⟩ := List.mem_map.mp member
    simp only [List.length_take, List.length_drop]
    omega

section positive

variable {size : Nat} (pos : 0 < size)
include pos

theorem length_segments (payload : List α) :
    (segments size payload).length = (payload.length + size - 1) / size := by
  simp [segments, Nat.pos_iff_ne_zero.mp pos]

theorem getElem_segments (payload : List α) (t : Nat) (inside : t < (segments size payload).length) :
    (segments size payload)[t] = (payload.drop (size * t)).take size := by
  simp [segments, Nat.pos_iff_ne_zero.mp pos]

theorem segments_of_length_le {payload : List α} (nonempty : payload ≠ [])
    (short : payload.length ≤ size) : segments size payload = [payload] := by
  have one : (payload.length + size - 1) / size = 1 := by
    have : 0 < payload.length := List.length_pos_iff.mpr nonempty
    rw [Nat.div_eq_iff pos]
    omega
  simp [segments, Nat.pos_iff_ne_zero.mp pos, one, List.take_of_length_le short]

/-- Whole segments in front do not move the cuts of what follows them. -/
theorem segments_append {front : List α} (back : List α) (whole : ∃ k, front.length = size * k) :
    segments size (front ++ back) = segments size front ++ segments size back := by
  obtain ⟨k, length_front⟩ := whole
  have counts : (front.length + back.length + size - 1) / size =
      k + (back.length + size - 1) / size := by
    rw [length_front, show size * k + back.length + size - 1 = (back.length + size - 1) + k * size
      by rw [Nat.mul_comm]; omega, Nat.add_mul_div_right _ _ pos, Nat.add_comm]
  have count_front : (front.length + size - 1) / size = k := by
    rw [length_front, show size * k + size - 1 = (size - 1) + k * size by rw [Nat.mul_comm]; omega,
      Nat.add_mul_div_right _ _ pos, Nat.div_eq_of_lt (by omega), Nat.zero_add]
  simp only [segments, Nat.pos_iff_ne_zero.mp pos, if_false, List.length_append, counts,
    count_front, List.range_add, List.map_append, List.map_map]
  congr 1
  · -- the cuts inside `front` see only `front`
    refine List.map_congr_left fun t member => ?_
    have before : size * t + size ≤ front.length := by
      rw [length_front, ← Nat.mul_succ]
      exact Nat.mul_le_mul_left _ (List.mem_range.mp member)
    rw [List.drop_append_of_le_length (by omega), List.take_append_of_le_length (by simp; omega)]
  · refine List.map_congr_left fun t _ => ?_
    simp only [Function.comp_apply, Nat.mul_add, ← length_front, List.drop_append]
    rw [List.drop_eq_nil_of_le (by omega), List.nil_append, Nat.add_sub_cancel_left]

end positive

end Segmentation
