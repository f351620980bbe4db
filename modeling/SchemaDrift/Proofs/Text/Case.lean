import Mathlib
import SchemaDrift.Text.Blank
import SchemaDrift.Text.Case
/-!
Lower-casing settles a character: what it gives has no other lower-case form, and it neither is nor
becomes white space or one of the marks that delimit expressions. The case table is checked run
against run, not code point by code point.
-/

set_option autoImplicit false

namespace SchemaDrift.Text

structure Settled (c : Char) : Prop where
  lower : lowerChar c = [c]
  solid : isBlank c = false
  letter : 0x61 ≤ c.toNat

instance (c : Char) : Decidable (Settled c) :=
  decidable_of_iff (lowerChar c = [c] ∧ isBlank c = false ∧ 0x61 ≤ c.toNat)
    ⟨fun facts => ⟨facts.1, facts.2.1, facts.2.2⟩, fun s => ⟨s.lower, s.solid, s.letter⟩⟩

-- The code points that no image may have: those below the letters of the table, `İ`, white space,
-- surrogates, and the characters with a lower-case form.
def keptAway : List (Nat × Nat × Nat) :=
  [(0x0, 0xa0, 1), (0x130, 0x130, 1), (0x1680, 0x1680, 1), (0x2000, 0x202f, 1), (0x205f, 0x205f, 1),
    (0x3000, 0x3000, 1), (0xd800, 0xdfff, 1)]
    ++ lowerRuns.map fun (first, last, stride, _) => (first, last, stride)

-- Two runs that overlap can still pass each other, if both hold every second code point.
def apart (low high stride first last step : Nat) : Bool :=
  Nat.blt last low || Nat.blt high first
    || (Nat.beq step 2 && (Nat.beq stride 2 || Nat.beq low high) && Nat.beq ((low + first) % 2) 1)

-- The Kelvin sign is the one character beyond ASCII whose image is an ASCII letter.
def settles (run : Nat × Nat × Nat × Int) : Bool :=
  let (first, last, stride, distance) := run
  let low := (first + distance).toNat
  let high := (last + distance).toNat
  (Nat.beq low 0x6b && Nat.beq high 0x6b)
    || (Nat.blt high 0x110000
      && keptAway.all fun (first, last, step) => apart low high stride first last step)

theorem runs_settle : ∀ run ∈ lowerRuns, settles run = true := by
  refine List.all_eq_true.mp ?_
  decide +kernel

theorem runs_go_up : ∀ run ∈ lowerRuns, 0 ≤ (run.1 : Int) + run.2.2.2 := by
  decide +kernel

theorem apart_off (low high stride first last step n : Nat)
    (away : apart low high stride first last step = true) (on : onRun n low high stride = true) :
    onRun n first last step = false := by
  simp only [apart, onRun, Nat.blt_eq, Nat.beq_eq, Bool.or_eq_true, Bool.and_eq_true,
    decide_eq_true_eq, beq_iff_eq] at away on
  simp only [onRun, Bool.and_eq_false_iff, decide_eq_false_iff_not, beq_eq_false_iff_ne]
  obtain ⟨⟨above, below⟩, beat⟩ := on
  obtain (before | after) | ⟨⟨rfl, rfl | rfl⟩, odd⟩ := away <;> omega

theorem image_on_run (first last stride n : Nat) (distance : Int) (up : 0 ≤ (first : Int) + distance)
    (on : onRun n first last stride = true) :
    onRun ((n : Int) + distance).toNat (first + distance).toNat (last + distance).toNat stride
      = true := by
  simp only [onRun, Bool.and_eq_true, decide_eq_true_eq, beq_iff_eq] at on ⊢
  obtain ⟨⟨above, below⟩, beat⟩ := on
  refine ⟨⟨by omega, by omega⟩, ?_⟩
  rw [← beat]
  congr 1
  omega

theorem on_range (n first last : Nat) : onRun n first last 1 = (first ≤ n && n ≤ last) := by
  simp only [onRun, Nat.mod_one, beq_self_eq_true, Bool.and_true]

theorem settled_of_away (n : Nat) (bound : n < 0x110000)
    (away : ∀ run ∈ keptAway, onRun n run.1 run.2.1 run.2.2 = false) : Settled (Char.ofNat n) := by
  have ranges := away
  simp only [keptAway, List.forall_mem_append, List.forall_mem_cons, on_range,
    Bool.and_eq_false_iff, decide_eq_false_iff_not] at ranges
  obtain ⟨⟨low, dotted, ogham, general, medium, wide, surrogate, -⟩, -⟩ := ranges
  have valid : n.isValidChar := by
    by_cases small : n < 0xd800
    · exact .inl small
    · exact .inr ⟨by omega, bound⟩
  have number : (Char.ofNat n).toNat = n := by
    rw [Char.ofNat, dif_pos valid]
    rfl
  have unlisted : lowerRuns.find? (fun run => onRun n run.1 run.2.1 run.2.2.1) = none := by
    refine List.find?_eq_none.mpr fun run member => ?_
    rw [away (run.1, run.2.1, run.2.2.1)
      (List.mem_append_right _ (List.mem_map.mpr ⟨run, member, rfl⟩))]
    exact Bool.false_ne_true
  refine ⟨?_, ?_, by omega⟩
  · unfold lowerChar
    dsimp only
    rw [number, if_neg (by omega), if_neg (by omega), unlisted]
  · simp only [isBlank, number, Bool.or_eq_false_iff, Bool.and_eq_false_iff, decide_eq_false_iff_not,
      beq_eq_false_iff_ne]
    omega

theorem image_settled (run : Nat × Nat × Nat × Int) (member : run ∈ lowerRuns) (n : Nat)
    (on : onRun n run.1 run.2.1 run.2.2.1 = true) :
    Settled (Char.ofNat ((n : Int) + run.2.2.2).toNat) := by
  obtain ⟨first, last, stride, distance⟩ := run
  have image := image_on_run first last stride n distance (runs_go_up _ member) on
  have bounds := image
  simp only [onRun, Bool.and_eq_true, decide_eq_true_eq] at bounds
  have settled := runs_settle _ member
  simp only [settles, Bool.or_eq_true, Bool.and_eq_true, Nat.beq_eq, Nat.blt_eq,
    List.all_eq_true] at settled
  obtain ⟨low, high⟩ | ⟨bound, away⟩ := settled
  · have kelvin : ((n : Int) + distance).toNat = 0x6b := by omega
    rw [kelvin]
    decide
  · refine settled_of_away _ ?_ fun run kept => apart_off _ _ _ _ _ _ _ (away run kept) image
    dsimp only
    omega

theorem capitals_settle : ∀ n ∈ List.range' 0x41 26, Settled (Char.ofNat n).toLower := by
  decide +kernel

theorem dotted_settles : Settled 'i' ∧ Settled (Char.ofNat 0x307) := by
  decide +kernel

theorem lower_char_settles (c : Char) :
    lowerChar c = [c] ∨ lowerChar c ≠ [] ∧ ∀ d ∈ lowerChar c, Settled d := by
  by_cases ascii : c.toNat < 0x80
  · have lower : lowerChar c = [c.toLower] := if_pos ascii
    by_cases capital : c.isUpper = true
    · have member : c.toNat ∈ List.range' 0x41 26 := by
        have bounds : 0x41 ≤ c.toNat ∧ c.toNat ≤ 0x5a := by
          simpa [Char.isUpper, UInt32.le_iff_toNat_le] using capital
        exact List.mem_range'_1.mpr ⟨bounds.1, Nat.lt_succ_of_le bounds.2⟩
      have settled := capitals_settle c.toNat member
      rw [Char.ofNat_toNat] at settled
      refine .inr ⟨by simp [lower], fun d inside => ?_⟩
      rw [lower, List.mem_singleton] at inside
      exact inside ▸ settled
    · exact .inl (by rw [lower, Char.toLower_eq_of_not_isUpper capital])
  · by_cases dotted : c.toNat = 0x130
    · have char : c = Char.ofNat 0x130 := by rw [← dotted, Char.ofNat_toNat]
      have lower : lowerChar c = ['i', Char.ofNat 0x307] := by
        rw [char]
        rfl
      refine .inr ⟨by simp [lower], ?_⟩
      rw [lower]
      exact List.forall_mem_cons.mpr
        ⟨dotted_settles.1, List.forall_mem_singleton.mpr dotted_settles.2⟩
    · cases found : lowerRuns.find? fun (first, last, stride, _) => onRun c.toNat first last stride with
      | none =>
          refine .inl ?_
          unfold lowerChar
          dsimp only
          rw [if_neg ascii, if_neg dotted, found]
      | some run =>
          have on : onRun c.toNat run.1 run.2.1 run.2.2.1 = true := by
            simpa using List.find?_some found
          have image : lowerChar c = [Char.ofNat ((c.toNat : Int) + run.2.2.2).toNat] := by
            unfold lowerChar
            dsimp only
            rw [if_neg ascii, if_neg dotted, found]
          refine .inr ⟨by simp [image], fun d member => ?_⟩
          rw [image, List.mem_singleton] at member
          rw [member]
          exact image_settled run (List.mem_of_find?_eq_some found) c.toNat on

theorem lower_char_ne_nil (c : Char) : lowerChar c ≠ [] := by
  obtain same | ⟨some, -⟩ := lower_char_settles c
  · simp [same]
  · exact some

theorem lower_char_again (c d : Char) (member : d ∈ lowerChar c) : lowerChar d = [d] := by
  obtain same | ⟨-, settled⟩ := lower_char_settles c
  · rw [same, List.mem_singleton] at member
    rw [member, same]
  · exact (settled d member).lower

theorem lower_char_solid (c d : Char) (solid : isBlank c = false) (member : d ∈ lowerChar c) :
    isBlank d = false := by
  obtain same | ⟨-, settled⟩ := lower_char_settles c
  · rw [same, List.mem_singleton] at member
    rw [member, solid]
  · exact (settled d member).solid

theorem lower_char_mark (c d : Char) (member : d ∈ lowerChar c) (mark : d.toNat < 0x61) : d = c := by
  obtain same | ⟨-, settled⟩ := lower_char_settles c
  · exact List.mem_singleton.mp (same ▸ member)
  · exact absurd (settled d member).letter (Nat.not_le.mpr mark)

end SchemaDrift.Text
