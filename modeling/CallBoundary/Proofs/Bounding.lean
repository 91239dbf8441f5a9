import CallBoundary.Report
/-! What bounding reports comes to: a cut at the fifth level and nothing else. A position is the way down from a
report, one step into its reports for each number. Which positions stay is told by their length alone, what stands at
them is what stood there before, and the depth is cut to five. Bounding again, at the same depth or a lesser one, is
as good as bounding once; so it does not matter how often reports are bounded on their way up, nor that each of them
is taken for the top of a tree of its own when it is. -/
namespace CallBoundary

namespace Report

theorem clipTwice (attempt : Option Attempt) : (attempt.map clipArgs).map clipArgs = attempt.map clipArgs := by
  cases attempt with
  | none => rfl
  | some a => simp [clipArgs, List.take_take]

theorem boundTwice {fewer levels : Nat} (within : fewer ≤ levels) (r : Report) :
    boundBelow fewer (boundBelow levels r) = boundBelow fewer r := by
  induction fewer generalizing levels r with
  | zero => cases levels <;> simp only [boundBelow, clipTwice]
  | succ fewer ih =>
    cases levels with
    | zero => cases within
    | succ levels =>
      have inside (sub : Report) := ih (Nat.le_of_succ_le_succ within) sub
      simp only [boundBelow, clipTwice, List.map_map, Function.comp_def, inside]

theorem depthOfSubs (r : Report) : r.depth = 1 + depthAll r.subs := by
  cases r
  rfl

theorem depthAllCut {f : Report → Report} {bound : Nat} (each : ∀ r, (f r).depth = min bound r.depth) (subs : List Report) :
    depthAll (subs.map f) = min bound (depthAll subs) := by
  induction subs with
  | nil => exact (Nat.min_zero bound).symm
  | cons r rest ih =>
    rw [List.map_cons, depthAll, depthAll, each r, ih]
    omega

theorem boundCutsDepth (levels : Nat) (r : Report) : (boundBelow levels r).depth = min (levels + 1) r.depth := by
  induction levels generalizing r with
  | zero =>
    simp only [boundBelow, depthOfSubs, depthAll]
    omega
  | succ levels ih =>
    have inside := depthAllCut ih r.subs
    rw [depthOfSubs, depthOfSubs r, boundBelow]
    dsimp only
    omega

theorem boundedDepth (r : Report) : r.bounded.depth ≤ maxDepth := by
  rw [bounded, boundCutsDepth]
  exact Nat.min_le_left _ _

theorem boundedTwice (r : Report) : r.bounded.bounded = r.bounded := boundTwice (Nat.le_refl _) r

theorem boundedSubs (r : Report) :
    r.bounded = { r with
      attempt := r.attempt.map clipArgs
      subs := (r.subs.map bounded).map (boundBelow (maxDepth - 2)) } := by
  have inside (sub : Report) : boundBelow (maxDepth - 2) sub.bounded = boundBelow (maxDepth - 2) sub :=
    boundTwice (by decide) sub
  simp only [List.map_map, Function.comp_def, inside]
  rfl

theorem wholeSubs (attempt : Attempt) (gasLimit gasUsed : Gas) (subs : List Report) (result : Result) :
    whole attempt gasLimit gasUsed subs result = { whole attempt gasLimit gasUsed [] result with subs } := by
  cases result <;> rfl

theorem wholeBounded {subs others : List Report} (same : subs.map bounded = others.map bounded)
    (attempt : Attempt) (gasLimit gasUsed : Gas) (result : Result) :
    (whole attempt gasLimit gasUsed subs result).bounded = (whole attempt gasLimit gasUsed others result).bounded := by
  rw [boundedSubs, boundedSubs, wholeSubs attempt gasLimit gasUsed subs, wholeSubs attempt gasLimit gasUsed others, same]

def descend? (r : Report) : List Nat → Option Report
  | [] => some r
  | step :: rest => r.subs[step]?.bind fun sub => sub.descend? rest

theorem descendStep {r node : Report} {step : Nat} {rest : List Nat} :
    r.descend? (step :: rest) = some node ↔ ∃ sub, r.subs[step]? = some sub ∧ sub.descend? rest = some node :=
  Option.bind_eq_some_iff

theorem boundDescend (levels : Nat) (r : Report) (path : List Nat) :
    (boundBelow levels r).descend? path =
      if path.length ≤ levels then (r.descend? path).map (boundBelow (levels - path.length)) else none := by
  induction path generalizing levels r with
  | nil => simp [descend?]
  | cons step rest ih =>
    cases levels with
    | zero => simp [descend?, boundBelow]
    | succ levels =>
      simp only [descend?, boundBelow, List.getElem?_map, List.length_cons, Nat.add_le_add_iff_right,
        Nat.add_sub_add_right]
      cases r.subs[step]? with
      | none => simp
      | some sub => exact ih levels sub

theorem boundedDescend {r node : Report} {path : List Nat} (found : r.bounded.descend? path = some node) :
    ∃ original levels, r.descend? path = some original ∧ node = boundBelow levels original := by
  rw [bounded, boundDescend] at found
  split at found
  · obtain ⟨original, reached, rfl⟩ := Option.map_eq_some_iff.mp found
    exact ⟨original, _, reached, rfl⟩
  · cases found

theorem boundKeeps (levels : Nat) (r : Report) :
    (boundBelow levels r).attempt = r.attempt.map clipArgs ∧ (boundBelow levels r).gasUsed = r.gasUsed ∧
      (boundBelow levels r).remainingGas = r.remainingGas := by
  cases levels <;> exact ⟨rfl, rfl, rfl⟩

theorem boundedAt (r : Report) (path : List Nat) :
    r.bounded.descend? path =
      if path.length ≤ 4 then (r.descend? path).map (boundBelow (4 - path.length)) else none :=
  boundDescend 4 r path

theorem boundedReaches (r : Report) (path : List Nat) :
    (r.bounded.descend? path).isSome ↔ (r.descend? path).isSome ∧ path.length ≤ 4 := by
  rw [boundedAt]
  split
  · rename_i near
    simp only [Option.isSome_map, near, and_true]
  · rename_i far
    simp only [Option.isSome_none, Bool.false_eq_true, far, and_false]

-- What bounding leaves of a report: all of it, but no more than so many bytes of the arguments of its attempt, and
-- its own reports only where levels are left for them.
structure Kept (levels : Nat) (original node : Report) : Prop where
  same : node = { original with
    attempt := original.attempt.map fun a => { a with args := a.args.take 100 }
    subs := node.subs }
  whole : ∀ a, original.attempt = some a → a.args.length ≤ 100 → node.attempt = some a
  subs : node.subs.length = if 0 < levels then original.subs.length else 0

theorem boundKept (levels : Nat) (original : Report) : Kept levels original (boundBelow levels original) where
  same := by
    cases levels <;> rfl
  whole a attempted short := by
    rw [(boundKeeps levels original).1, attempted, Option.map_some, clipArgs, maxArgs, List.take_of_length_le short]
  subs := by
    cases levels with
    | zero => rfl
    | succ levels => exact List.length_map _

theorem boundedOverBounded (r : Report) : { r with subs := r.subs.map bounded }.bounded = r.bounded := by
  rw [boundedSubs, boundedSubs r]
  simp only [List.map_map, Function.comp_def, boundedTwice]

/-- A position stays when it is at most four steps down, and there stands what stood there before, cut in its arguments
alone and in what lies beyond the fifth level. The depth is the smaller of five and what it was. What has been bounded is
not changed by bounding it again, and a report over reports that have been bounded before is bounded to the
same as one over the reports as they were. -/
theorem boundingCutsAtFifthLevel (r : Report) :
    (∀ path, (r.bounded.descend? path).isSome ↔ (r.descend? path).isSome ∧ path.length ≤ 4) ∧
      (∀ path original, r.descend? path = some original → path.length ≤ 4 →
        ∃ node, r.bounded.descend? path = some node ∧ Kept (4 - path.length) original node) ∧
      r.bounded.depth = min 5 r.depth ∧
      r.bounded.bounded = r.bounded ∧
      { r with subs := r.subs.map bounded }.bounded = r.bounded := by
  refine ⟨r.boundedReaches, ?_, boundCutsDepth 4 r, r.boundedTwice, r.boundedOverBounded⟩
  intro path original reached near
  refine ⟨boundBelow (4 - path.length) original, ?_, boundKept _ original⟩
  rw [boundedAt, if_pos near, reached, Option.map_some]

end Report

end CallBoundary
