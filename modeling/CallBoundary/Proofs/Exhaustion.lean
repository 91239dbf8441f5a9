import CallBoundary.Boundary
import CallBoundary.Overlay
/-! Frames whose meter is exhausted. Every operation but one is refused for want of gas and leaves
the frame as it was, but for the meter where gas is charged by hand. The exception is the commit: it
does not look at the meter. Below the top it is refused for what it is; at the top it goes through. -/
namespace CallBoundary

namespace Meter

theorem exhaustedToNat (m : Meter) : m.exhausted = true ↔ 0 < m.limit.toNat ∧ m.limit.toNat < m.consumed.toNat := by
  simp only [exhausted, Bool.and_eq_true, decide_eq_true_eq, UInt64.lt_iff_toNat_lt]
  exact Iff.rfl

theorem exhaustedConsume {m : Meter} (exhausted : m.exhausted = true) (gas : Gas) : (m.consume gas).exhausted = true := by
  rw [exhaustedToNat] at exhausted ⊢
  obtain ⟨limited, passed⟩ := exhausted
  have more : m.consumed.toNat ≤ (Gas.plus m.consumed gas).toNat := by
    have bound := Gas.toNatLe m.consumed
    rw [Gas.plusToNat]
    omega
  exact ⟨limited, Nat.lt_of_lt_of_le passed more⟩

end Meter

/-! Gas runs out for a query while it is charged. By then its key has been looked at, and nothing has been read. -/

namespace Overlay

theorem queryFaultInternal {q : Query} {fault : Fault} (refused : queryFault? q = some fault) :
    ∃ message, fault = .internal message := by
  have keyed {key : Bytes} (refused : keyFault? key = some fault) : ∃ message, fault = .internal message := by
    simp only [keyFault?] at refused
    split at refused
    · cases refused
      exact ⟨_, rfl⟩
    · cases refused
  cases q with
  | storage key | storageOf contract key => exact keyed refused
  | _ => cases refused

inductive QueryEnded (o : Overlay) (m : Meter) (q : Query) : Except Fault q.Answer × Meter → Prop
  | refused (message : String) (early : queryFault? q = some (.internal message)) :
      QueryEnded o m q (.error (.internal message), m)
  | starved (passed : queryFault? q = none) (exhausted : (m.consumeAll (o.queryCharges q)).exhausted = true) :
      QueryEnded o m q (.error .outOfGas, m.consumeAll (o.queryCharges q))
  | answered (passed : queryFault? q = none) (spared : (m.consumeAll (o.queryCharges q)).exhausted = false) :
      QueryEnded o m q (.ok (o.answer q), m.consumeAll (o.queryCharges q))

theorem queryEnded (o : Overlay) (m : Meter) (q : Query) : o.QueryEnded m q (o.query m q) := by
  cases early : queryFault? q with
  | some fault =>
    obtain ⟨message, rfl⟩ := queryFaultInternal early
    simp only [query, early]
    exact .refused message early
  | none =>
    simp only [query, early]
    split
    · rename_i exhausted
      exact .starved early exhausted
    · rename_i spared
      exact .answered early (eq_false_of_ne_true spared)

end Overlay

/-! What an exhausted meter stops. -/

namespace Operation

def fault? : (op : Operation) → op.Answer → Option Fault
  | .query _, .error fault | .update _, .error fault | .consumeGas _, .error fault | .commit, .error fault
  | .call _, .error fault | .deploy _, .error fault => some fault
  | _, _ => none

def Guarded : Operation → Prop
  | .ask _ | .setGasLimit _ => False
  | _ => True

def meterAfter (m : Meter) : Operation → Meter
  | .consumeGas gas => m.consume gas
  | _ => m

end Operation

namespace Frame

variable {ν E : Type} [Host E] {level : Level ν E} {f : Frame E}

structure Refused (level : Level ν E) (f : Frame E) (op : Operation) : Prop where
  answer : op.fault? (f.step level op).1 = some .outOfGas
  host : (f.step level op).2.1.host = f.host
  reports : (f.step level op).2.1.reports = f.reports
  meter : (f.step level op).2.1.meter = op.meterAfter f.meter
  trace : (f.step level op).2.2 = []

theorem nestedCommit (below : 0 < level.depth) : f.step level .commit = (.error .nestedCommit, f, []) := by
  simp only [step, commit, if_pos below]

theorem topCommitFails (top : level.depth = 0) {fault : Fault} {host : E}
    (fails : Host.commit f.host = (.error fault, host)) :
    f.step level .commit = (.error fault, { f with host }, []) := by
  simp only [step, commit, top, Nat.lt_irrefl, if_false, fails]

theorem topCommitGoes (top : level.depth = 0) {host : E} (goes : Host.commit f.host = (.ok (), host)) :
    f.step level .commit = (.ok (), { f with host := Host.clear host }, []) := by
  simp only [step, commit, top, Nat.lt_irrefl, if_false, goes]

theorem refusedOfStep {op : Operation} {answer : op.Answer} (fails : op.fault? answer = some .outOfGas)
    (stepped : f.step level op = (answer, { f with meter := op.meterAfter f.meter }, [])) : f.Refused level op := by
  refine ⟨?_, ?_, ?_, ?_, ?_⟩ <;> rw [stepped]
  exact fails

theorem queryExhausted (exhausted : f.meter.exhausted = true) (q : Query) : f.query q = (.error .outOfGas, f) :=
  if_pos exhausted

theorem updateExhausted (exhausted : f.meter.exhausted = true) (u : Update) : f.update u = (.error .outOfGas, f) :=
  if_pos exhausted

theorem querySpared (spared : f.meter.exhausted = false) (q : Query) :
    f.query q = (metered f.meter (Host.query f.host f.meter q).2 (Host.query f.host f.meter q).1,
      { f with meter := (Host.query f.host f.meter q).2 }.recordIf (attemptOfQuery q)
        (metered f.meter (Host.query f.host f.meter q).2 (Host.query f.host f.meter q).1)) := by
  unfold query
  rw [spared]
  rfl

theorem updateSpared (spared : f.meter.exhausted = false) (u : Update) :
    f.update u = (metered f.meter (Host.update f.host f.meter u).2.1 (Host.update f.host f.meter u).1,
      { f with meter := (Host.update f.host f.meter u).2.1, host := (Host.update f.host f.meter u).2.2 }.recordIf
        (attemptOfUpdate u) (metered f.meter (Host.update f.host f.meter u).2.1 (Host.update f.host f.meter u).1)) := by
  unfold update
  rw [spared]
  rfl

theorem otherRefused (exhausted : f.meter.exhausted = true) {op : Operation} (guarded : op.Guarded)
    (other : op ≠ .commit) : f.Refused level op := by
  cases op with
  | query q =>
    have stepped : f.step level (.query q) = (.error .outOfGas, f, []) := by simp only [step, queryExhausted exhausted]
    exact refusedOfStep rfl stepped
  | update u =>
    have stepped : f.step level (.update u) = (.error .outOfGas, f, []) := by simp only [step, updateExhausted exhausted]
    exact refusedOfStep rfl stepped
  | ask p => exact guarded.elim
  | setGasLimit limit => exact guarded.elim
  | consumeGas gas =>
    have still := Meter.exhaustedConsume exhausted gas
    have stepped : f.step level (.consumeGas gas) =
        (.error .outOfGas, { f with meter := f.meter.consume gas }, []) := by
      simp only [step, consumeGas, still, if_true]
    exact refusedOfStep rfl stepped
  | commit => exact (other rfl).elim
  | call c =>
    have stepped : f.step level (.call c) = (.error .outOfGas, f, []) := if_pos exhausted
    exact refusedOfStep rfl stepped
  | deploy d =>
    have stepped : f.step level (.deploy d) = (.error .outOfGas, f, []) := by
      simp only [step, deploy, queryExhausted exhausted]
    exact refusedOfStep rfl stepped

theorem commitRefused :
    f.Refused level .commit ↔ level.depth = 0 ∧ Host.commit f.host = (.error .outOfGas, f.host) := by
  constructor
  · intro refused
    have answer := refused.answer
    have host := refused.host
    rcases Nat.eq_zero_or_pos level.depth with top | below
    · refine ⟨top, ?_⟩
      cases committed : Host.commit f.host with
      | mk result after =>
        cases result with
        | ok _ =>
          rw [topCommitGoes top committed] at answer
          cases answer
        | error fault =>
          rw [topCommitFails top committed] at answer host
          cases answer
          rw [← host]
    · rw [nestedCommit below] at answer
      cases answer
  · rintro ⟨top, fails⟩
    exact refusedOfStep rfl (topCommitFails top fails)

/-! Runs of operations. -/

def after (level : Level ν E) : Frame E → List Operation → Frame E
  | f, [] => f
  | f, op :: rest => after level (f.step level op).2.1 rest

def Unlifted (level : Level ν E) : Frame E → List Operation → Prop
  | _, [] => True
  | f, op :: rest =>
    (∀ limit, op = .setGasLimit limit → (f.meter.withLimit limit).exhausted = true) ∧
      Unlifted level (f.step level op).2.1 rest

structure Stuck (f after : Frame E) : Prop where
  host : after.host = f.host
  reports : after.reports = f.reports
  meter : after.meter.exhausted = true

theorem refusedStuck (exhausted : f.meter.exhausted = true) {op : Operation} (refused : f.Refused level op) :
    Stuck f (f.step level op).2.1 := by
  refine ⟨refused.host, refused.reports, ?_⟩
  rw [refused.meter]
  cases op with
  | consumeGas gas => exact Meter.exhaustedConsume exhausted gas
  | query _ | update _ | ask _ | setGasLimit _ | commit | call _ | deploy _ => exact exhausted

theorem stepStuck (exhausted : f.meter.exhausted = true) {op : Operation}
    (unlifted : ∀ limit, op = .setGasLimit limit → (f.meter.withLimit limit).exhausted = true)
    (uncommitted : 0 < level.depth ∨ op ≠ .commit) : Stuck f (f.step level op).2.1 := by
  cases op with
  | ask p => exact ⟨rfl, rfl, exhausted⟩
  | setGasLimit limit => exact ⟨rfl, rfl, unlifted limit rfl⟩
  | commit =>
    rcases uncommitted with below | other
    · rw [nestedCommit below]
      exact ⟨rfl, rfl, exhausted⟩
    · exact (other rfl).elim
  | query _ | update _ | consumeGas _ | call _ | deploy _ =>
    exact refusedStuck exhausted (otherRefused exhausted trivial Operation.noConfusion)

theorem afterStuck {ops : List Operation} (exhausted : f.meter.exhausted = true) (unlifted : f.Unlifted level ops)
    (uncommitted : 0 < level.depth ∨ .commit ∉ ops) : Stuck f (f.after level ops) := by
  induction ops generalizing f with
  | nil => exact ⟨rfl, rfl, exhausted⟩
  | cons op rest ih =>
    obtain ⟨first, others⟩ := unlifted
    have firstUncommitted : 0 < level.depth ∨ op ≠ .commit :=
      uncommitted.imp_right fun absent same => absent (same ▸ List.mem_cons_self)
    have restUncommitted : 0 < level.depth ∨ .commit ∉ rest :=
      uncommitted.imp_right fun absent present => absent (List.mem_cons_of_mem op present)
    have here := stepStuck exhausted first firstUncommitted
    have there := ih here.meter others restUncommitted
    exact ⟨there.host.trans here.host, there.reports.trans here.reports, there.meter⟩

/-- With the meter exhausted, every operation that needs gas is refused and changes nothing, a commit
alone excepted: below the top it is refused as a nested one, and at the top it is left to the host.
So as long as no new limit lifts the meter, operations without a commit at the top get nowhere. -/
theorem exhaustedRefusesAllButCommit (level : Level ν E) (f : Frame E) (exhausted : f.meter.exhausted = true) :
    (∀ op, op.Guarded → op ≠ .commit → f.Refused level op) ∧
      (f.Refused level .commit ↔ level.depth = 0 ∧ Host.commit f.host = (.error .outOfGas, f.host)) ∧
      (0 < level.depth → f.step level .commit = (.error .nestedCommit, f, [])) ∧
      (∀ ops, f.Unlifted level ops → 0 < level.depth ∨ .commit ∉ ops → Stuck f (f.after level ops)) :=
  ⟨fun _ guarded other => otherRefused exhausted guarded other, commitRefused, nestedCommit,
    fun _ unlifted uncommitted => afterStuck exhausted unlifted uncommitted⟩

def spareCell : Cell := ⟨FixedBytes.zero, [1]⟩

def overdrawn : Frame Overlay :=
  ⟨(Overlay.root Settings.standard ⟨FixedBytes.zero, FixedBytes.zero, FixedBytes.zero, Amount.zero⟩ {}).write
      fun c => c.setStorage spareCell (some [2]),
    ⟨100, 200⟩, []⟩

def aloneAt (depth : Nat) : Level Unit Overlay := ⟨depth, Settings.standard, none⟩

theorem overdrawnStuckBelowTop :
    overdrawn.meter.exhausted = true ∧
      Stuck overdrawn (overdrawn.after (aloneAt 1) [.update (.setStorage [1] [3]), .setGasLimit 150, .consumeGas 7, .commit]) := by
  have exhausted : overdrawn.meter.exhausted = true := by decide
  refine ⟨exhausted, (exhaustedRefusesAllButCommit (aloneAt 1) overdrawn exhausted).2.2.2 _ ?_ (.inl Nat.one_pos)⟩
  refine ⟨nofun, ?_, nofun, nofun, trivial⟩
  rintro _ ⟨⟩
  decide

theorem overdrawnCommitsAtTop :
    let after := (overdrawn.step (aloneAt 0) .commit).2.1
    overdrawn.meter.exhausted = true ∧ ¬ overdrawn.Refused (aloneAt 0) .commit ∧
      Operation.fault? .commit (overdrawn.step (aloneAt 0) .commit).1 = none ∧
      Operation.fault? .commit (overdrawn.step (aloneAt 1) .commit).1 = some .nestedCommit ∧
      overdrawn.host.store.storage[spareCell]? = none ∧ after.host.store.storage[spareCell]? = some [2] := by
  have accepted : Operation.fault? .commit (overdrawn.step (aloneAt 0) .commit).1 = none := rfl
  refine ⟨by decide, ?_, accepted, rfl, by decide +kernel, by decide +kernel⟩
  intro refused
  rw [refused.answer] at accepted
  cases accepted

end Frame

end CallBoundary
