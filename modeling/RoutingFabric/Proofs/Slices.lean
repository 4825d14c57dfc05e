import RoutingFabric.Proofs.Outcome
import RoutingFabric.Slices

/-!
# Even slices partition their range

The slices of a range lie side by side and reach from its start to its stop. There are as many as
asked for, unless the range holds fewer numbers, and none is longer than one before it or by more
than one than one behind it.

The slices may also be cut off one after another in machine words, where what does not go into even
slices is spread over the first of them and empty slices are dropped in the end. That comes to the
same, and no count on the way leaves the machine word.
-/

namespace RoutingFabric.Range

/-- The ranges lie side by side from `start` to `stop`, and none is empty. -/
inductive Paved : (start stop : Nat) → List Range → Prop
  /-- nothing lies between a number and itself -/
  | nil (stop : Nat) : Paved stop stop []
  /-- a range is followed by the ranges from its stop on -/
  | cons {start middle stop : Nat} {rest : List Range} (lt : start < middle)
    (beyond : Paved middle stop rest) : Paved start stop (⟨start, middle⟩ :: rest)

/-- The ranges partition a range into so many slices, as even as they can be, of which the longer
ones come first. No slices at all count as one. -/
structure Partitions (r : Range) (count : Nat) (parts : List Range) : Prop where
  paved : Paved r.start r.stop parts
  length : parts.length = min (max count 1) r.length
  descending : parts.Pairwise fun p q => q.length ≤ p.length
  even : ∀ p ∈ parts, ∀ q ∈ parts, p.length ≤ q.length + 1

variable {start stop count size longer : Nat} {r : Range} {parts : List Range}

/-! ### Ranges side by side -/

/-- Ranges side by side go upwards. -/
theorem Paved.start_le_stop (h : Paved start stop parts) : start ≤ stop := by
  induction h with
  | nil => apply Nat.le_refl
  | cons lt _ ih => omega

/-- Each of the ranges holds numbers, and none from the stop of all of them on. -/
theorem Paved.lt_and_stop_le (h : Paved start stop parts) :
  ∀ p ∈ parts, p.start < p.stop ∧ p.stop ≤ stop
  := by
  induction h with
  | nil =>
    intro p hp
    cases hp
  | cons lt beyond ih =>
    intro p hp
    rcases List.mem_cons.mp hp with rfl | hp
    · exact ⟨lt, beyond.start_le_stop⟩
    · apply ih p hp

/-- Ranges side by side hold all numbers from the start to the stop, in order. -/
theorem Paved.flatMap_toList (h : Paved start stop parts) :
  parts.flatMap toList = List.range' start (stop - start)
  := by
  induction h with
  | nil => simp
  | @cons start middle stop rest lt beyond ih =>
    have hle := beyond.start_le_stop
    have hfirst : start + (middle - start) = middle := by omega
    have hall : stop - start = (middle - start) + (stop - middle) := by omega
    rw [List.flatMap_cons, ih, hall, ← List.range'_append_1, hfirst]
    rfl

/-! ### Slices that are adjacent -/

/-- As many adjacent ranges are made as asked for. -/
theorem length_adjacent : (adjacent size count start longer).length = count := by
  induction count generalizing start longer with
  | zero => rfl
  | succ count ih => rw [adjacent, List.length_cons, ih]

/-- An adjacent range has the size asked for, or one number more while there are longer ones. -/
theorem length_of_mem_adjacent (h : r ∈ adjacent size count start longer) :
  r.length = size ∨ longer ≠ 0 ∧ r.length = size + 1
  := by
  induction count generalizing start longer with
  | zero => cases h
  | succ count ih =>
    rcases List.mem_cons.mp h with rfl | h
    · simp only [Range.length]
      split <;> omega
    · have := ih h
      omega

/-- Of adjacent ranges the longer come first. -/
theorem descending_adjacent :
  (adjacent size count start longer).Pairwise fun p q => q.length ≤ p.length
  := by
  induction count generalizing start longer with
  | zero => apply List.Pairwise.nil
  | succ count ih =>
    apply List.Pairwise.cons _ ih
    intro q hq
    have hlength := length_of_mem_adjacent hq
    simp only [Range.length] at hlength ⊢
    split <;> omega

/-- Adjacent ranges are side by side, if each has a number for itself. -/
theorem paved_adjacent (hlonger : longer ≤ count) (hsize : size = 0 → longer = count) :
  Paved start (start + count * size + longer) (adjacent size count start longer)
  := by
  induction count generalizing start longer with
  | zero =>
    obtain rfl := Nat.le_zero.mp hlonger
    simpa [adjacent] using Paved.nil start
  | succ count ih =>
    have hbeyond := @ih (start + size + if longer = 0 then 0 else 1) (longer - 1) (by omega)
      (by omega)
    have hstop : start + size + (if longer = 0 then 0 else 1) + count * size + (longer - 1)
        = start + (count + 1) * size + longer := by
      rw [Nat.succ_mul]
      split <;> omega
    rw [hstop] at hbeyond
    apply Paved.cons _ hbeyond
    split <;> omega

/-! ### Slices of a range -/

/-- Either each slice has a number for itself, or the slices that are left out are those that would
have none. -/
theorem slices_cases (r : Range) (count : Nat) :
  (0 < r.length / max count 1 ∧ min (max count 1) r.length = max count 1)
    ∨ r.length / max count 1 = 0 ∧ min (max count 1) r.length = r.length
      ∧ r.length % max count 1 = r.length
  := by
  have hpos : 0 < max count 1 := by omega
  generalize max count 1 = n at hpos
  rcases Nat.lt_or_ge r.length n with hlt | hge
  · right
    exact ⟨Nat.div_eq_of_lt hlt, by omega, Nat.mod_eq_of_lt hlt⟩
  · left
    exact ⟨Nat.div_pos hge hpos, by omega⟩

/-- The slices of a range are side by side. -/
theorem paved_slices (r : Range) (count : Nat) :
  Paved r.start (r.start + r.length) (r.slices count)
  := by
  have hmod := Nat.mod_lt r.length (show 0 < max count 1 by omega)
  have hdiv := Nat.div_add_mod r.length (max count 1)
  have hstop : min (max count 1) r.length * (r.length / max count 1) + r.length % max count 1
      = r.length := by
    rcases slices_cases r count with ⟨-, hcount⟩ | ⟨hsize, -, hlonger⟩
    · rw [hcount, hdiv]
    · rw [hsize, hlonger, Nat.mul_zero, Nat.zero_add]
  rw [← hstop, ← Nat.add_assoc]
  apply paved_adjacent
  · rcases slices_cases r count with h | h <;> omega
  · rcases slices_cases r count with h | h <;> omega

/-- The slices of a range hold its numbers, in order. -/
theorem flatMap_toList_slices (r : Range) (count : Nat) :
  (r.slices count).flatMap toList = r.toList
  := by
  rw [(paved_slices r count).flatMap_toList, Nat.add_sub_cancel_left, toList]

/-- The slices of a range lie in it. -/
theorem stop_le_of_mem_slices {s : Range} (hr : r.start ≤ r.stop) (h : s ∈ r.slices count) :
  s.stop ≤ r.stop
  := by
  have hstop : r.start + r.length = r.stop := Nat.add_sub_cancel' hr
  rw [← hstop]
  apply ((paved_slices r count).lt_and_stop_le s h).2

/-- The slices of a range partition it. -/
theorem partitions_slices (hr : r.start ≤ r.stop) (count : Nat) :
  Partitions r count (r.slices count)
  := by
  constructor
  case paved =>
    have hstop : r.start + r.length = r.stop := Nat.add_sub_cancel' hr
    have hpaved := paved_slices r count
    rw [hstop] at hpaved
    apply hpaved
  case length => apply length_adjacent
  case descending => apply descending_adjacent
  case even =>
    intro p hp q hq
    have hp := length_of_mem_adjacent hp
    have hq := length_of_mem_adjacent hq
    omega

/-! ### Slices cut off one after another -/

/-- Slices cut off one after another, with one number more while some are left over. -/
def cutOff (size : Nat) : (count start left : Nat) → Outcome (List Range)
  | 0, _, _ => return []
  | count + 1, start, left => do
    let length ← word (if 0 < left then size + 1 else size)
    let stop ← word (start + length)
    return ⟨start, stop⟩ :: (← cutOff size count stop (left - 1))

/-- The slices of a range, cut off one after another, without those that are empty. -/
def cutSlices (start stop count : Nat) : Outcome (List Range) := do
  if stop < start then fault .overflow
  else
    let count := max count 1
    let size := (stop - start) / count
    let total ← word (size * count)
    if stop - start < total then fault .overflow
    else
      let parts ← cutOff size count start (stop - start - total)
      return parts.filter fun p => p.start ≠ p.stop

/-- Slices that are cut off are adjacent, and all counts are machine words if the last stop is. -/
theorem cutOff_eq_adjacent {left : Nat} (hleft : left ≤ count)
    (hstop : start + count * size + left < wordLimit) :
  cutOff size count start left = .ok (adjacent size count start left)
  := by
  induction count generalizing start left with
  | zero => rfl
  | succ count ih =>
    rw [Nat.succ_mul] at hstop
    have hlength : (if 0 < left then size + 1 else size) = size + if left = 0 then 0 else 1 := by
      split <;> split <;> omega
    have hrest := @ih (start + size + if left = 0 then 0 else 1) (left - 1) (by omega)
      (by split <;> omega)
    rw [cutOff, hlength, word_of_lt (by split <;> omega), ok_bind, ← Nat.add_assoc,
      word_of_lt (by split <;> omega), ok_bind, hrest]
    rfl

/-- Of adjacent ranges of no size those are empty that come after the longer ones. -/
theorem filter_adjacent_zero (hlonger : longer ≤ count) :
  ((adjacent 0 count start longer).filter fun p => p.start ≠ p.stop)
    = adjacent 0 longer start longer
  := by
  induction count generalizing start longer with
  | zero =>
    obtain rfl := Nat.le_zero.mp hlonger
    rfl
  | succ count ih =>
    cases longer with
    | zero =>
      have hrest := @ih start 0 (Nat.zero_le count)
      rw [adjacent.eq_2, List.filter_cons_of_neg (by simp)]
      apply hrest
    | succ longer =>
      rw [adjacent, List.filter_cons_of_pos (by simp), ih (by omega)]
      rfl

/-- The slices of a range are the adjacent ranges that are not empty. -/
theorem filter_adjacent_eq_slices (r : Range) (count : Nat) :
  ((adjacent (r.length / max count 1) (max count 1) r.start (r.length % max count 1)).filter
      fun p => p.start ≠ p.stop)
    = r.slices count
  := by
  rw [slices]
  rcases slices_cases r count with ⟨hsize, hcount⟩ | ⟨hsize, hcount, hlonger⟩
  · rw [hcount]
    have hpaved := paved_slices r count
    rw [slices, hcount] at hpaved
    apply List.filter_eq_self.mpr
    intro p hp
    have := (hpaved.lt_and_stop_le p hp).1
    simp
    omega
  · rw [hsize, hcount, hlonger]
    apply filter_adjacent_zero
    omega

/-- Cutting slices off one after another gives the slices of the range, where its stop is a machine
word. -/
theorem cutSlices_eq_slicesOf (hstop : stop < wordLimit) :
  cutSlices start stop count = slicesOf start stop count
  := by
  rw [cutSlices, slicesOf]
  split
  · rfl
  · rename_i hle
    have hmod := Nat.mod_lt (stop - start) (show 0 < max count 1 by omega)
    have hdiv := Nat.div_add_mod (stop - start) (max count 1)
    have hfilter := filter_adjacent_eq_slices ⟨start, stop⟩ count
    simp only [Range.length] at hfilter
    generalize max count 1 = n at hmod hdiv hfilter
    rw [Nat.mul_comm] at hdiv
    have hleft : stop - start - (stop - start) / n * n = (stop - start) % n := by omega
    simp only
    rw [word_of_lt (by omega), ok_bind, if_neg (by omega), hleft,
      cutOff_eq_adjacent (Nat.le_of_lt hmod) (by rw [Nat.mul_comm]; omega), ok_bind, hfilter]
    rfl

/-- A range whose stop is a machine word is partitioned into even slices. They are the ones that are
cut off one after another, and no count on the way leaves the machine word. -/
theorem partitions_slicesOf (h : start ≤ stop) (hstop : stop < wordLimit) (count : Nat) :
  ∃ parts, slicesOf start stop count = .ok parts ∧ cutSlices start stop count = .ok parts
    ∧ Partitions ⟨start, stop⟩ count parts
  := by
  have hslices : slicesOf start stop count = .ok (slices ⟨start, stop⟩ count) := by
    rw [slicesOf, if_neg (Nat.not_lt_of_le h)]
  use slices ⟨start, stop⟩ count, hslices
  constructor
  · rw [cutSlices_eq_slicesOf hstop, hslices]
  · apply partitions_slices h

/-- Seven numbers up to the largest machine word are cut into three slices. -/
theorem partitions_last_words :
  wordLimit - 8 ≤ wordLimit - 1 ∧ wordLimit - 1 < wordLimit
    ∧ ∃ parts, slicesOf (wordLimit - 8) (wordLimit - 1) 3 = .ok parts
      ∧ cutSlices (wordLimit - 8) (wordLimit - 1) 3 = .ok parts
      ∧ Partitions ⟨wordLimit - 8, wordLimit - 1⟩ 3 parts
  := ⟨by decide, by decide, partitions_slicesOf (by decide) (by decide) 3⟩

/-- Two numbers are cut into two slices, also where four are asked for. -/
example : slicesOf 0 2 4 = .ok [⟨0, 1⟩, ⟨1, 2⟩] := by decide

end RoutingFabric.Range
