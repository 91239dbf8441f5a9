import CallBoundary.Proofs.Access
import CallBoundary.Proofs.Launches
/-! Runs over mapped hosts. A mapping that every operation of a host goes through carries over to frames, to what
runs below them, and so to whole runs: those over the two hosts end alike, leave the same trace, and the one leaves
behind what the other's host is mapped to. -/
namespace CallBoundary

variable {ν E F : Type}

def Frame.mapped (φ : E → F) (f : Frame E) : Frame F := ⟨φ f.host, f.meter, f.reports⟩

def Finished.mapped (φ : E → F) (f : Finished ν E) : Finished ν F := ⟨f.toFrame.mapped φ, f.ending, f.trace⟩

theorem Frame.recordIfMapped {α : Type} {φ : E → F} (f : Frame E) (attempt : Option Attempt)
    (answer : Except Fault (Metered α)) : (f.mapped φ).recordIf attempt answer = (f.recordIf attempt answer).mapped φ := by
  cases attempt with
  | none => rfl
  | some attempt =>
    cases answer with
    | ok value => rfl
    | error fault => cases fault <;> rfl

structure Level.Mapping (φ : E → F) (level : Level ν E) (other : Level ν F) : Prop where
  depth : other.depth = level.depth
  settings : other.settings = level.settings
  absent : level.enter = none → other.enter = none
  runs : ∀ run, level.enter = some run → ∃ twin, other.enter = some twin ∧
    ∀ host activation, twin (φ host) activation = (run host activation).mapped φ

variable [Host E] [Host F] {φ : E → F} (mapping : Host.Mapping φ)
include mapping

namespace Frame

theorem queryMapped (f : Frame E) (q : Query) :
    (f.mapped φ).query q = ((f.query q).1, (f.query q).2.mapped φ) := by
  have asked : Host.query (f.mapped φ).host (f.mapped φ).meter q = Host.query f.host f.meter q :=
    mapping.query f.host f.meter q
  have exhausted : (f.mapped φ).meter.exhausted = f.meter.exhausted := rfl
  simp only [query, asked, exhausted]
  split
  · rfl
  · rw [← recordIfMapped]
    rfl

theorem updateMapped (f : Frame E) (u : Update) :
    (f.mapped φ).update u = ((f.update u).1, (f.update u).2.mapped φ) := by
  have made := mapping.update f.host f.meter u
  have exhausted : (f.mapped φ).meter.exhausted = f.meter.exhausted := rfl
  simp only [update, exhausted]
  split
  · rfl
  · rw [← recordIfMapped]
    simp only [mapped, made]

theorem closeMapped (callee : Finished ν E) :
    close (callee.mapped φ) = ((close callee).1, φ (close callee).2.1, (close callee).2.2) := by
  have result : (callee.mapped φ).result = callee.result := rfl
  have host : (callee.mapped φ).host = φ callee.host := rfl
  simp only [close, result, host, mapping.commit, mapping.release]
  cases callee.result with
  | error failure => rfl
  | ok output =>
    cases Host.commit callee.host with
    | mk answer after => cases answer <;> simp only [mapping.release]

variable {level : Level ν E} {other : Level ν F} (across : level.Mapping φ other)
include across

theorem enterMapped (f : Frame E) (attempt : Attempt) (amount : Amount) (activation : Activation) :
    let entered := f.enter level attempt amount activation
    (f.mapped φ).enter other attempt amount activation = (entered.1, entered.2.1.mapped φ, entered.2.2) := by
  intro entered
  have host : (f.mapped φ).host = φ f.host := rfl
  cases deeper : level.enter with
  | none =>
    simp only [entered, enter, deeper, across.absent deeper]
    rfl
  | some run =>
    obtain ⟨twin, alsoDeeper, runs⟩ := across.runs run deeper
    simp only [entered, enter, deeper, alsoDeeper, host, mapping.derive]
    cases Host.derive f.host activation.contract amount (activation.entry = .constructor) with
    | mk answer child =>
      cases answer with
      | error fault => rfl
      | ok _ =>
        have begun : (if activation.entry = .constructor then Host.register (φ child) activation.code else φ child) =
            φ (if activation.entry = .constructor then Host.register child activation.code else child) := by
          rw [mapping.register, apply_ite φ]
        simp only [begun, runs, closeMapped mapping, across.depth]
        rfl

theorem callMapped (f : Frame E) (c : Call) :
    (f.mapped φ).call other c = ((f.call level c).1, (f.call level c).2.1.mapped φ, (f.call level c).2.2) := by
  have found : Host.code? (f.mapped φ).host c.contract = Host.code? f.host c.contract := mapping.code _ _
  have exhausted : (f.mapped φ).meter.exhausted = f.meter.exhausted := rfl
  simp only [call, exhausted, found]
  split
  · rfl
  · cases Host.code? f.host c.contract with
    | none => rfl
    | some code => simp only [enterMapped mapping across, across.settings]

theorem deployMapped (f : Frame E) (d : Deployment) :
    (f.mapped φ).deploy other d = ((f.deploy level d).1, (f.deploy level d).2.1.mapped φ, (f.deploy level d).2.2) := by
  simp only [deploy, queryMapped mapping]
  cases f.query (.addressOfCode d.code d.args d.nonce) with
  | mk answer paid =>
    cases answer with
    | error fault => rfl
    | ok derived =>
      obtain ⟨contract, gas⟩ := derived
      have found : Host.codeHash? (paid.mapped φ).host contract = Host.codeHash? paid.host contract :=
        mapping.codeHash _ _
      simp only [found]
      cases Host.codeHash? paid.host contract with
      | some hash => rfl
      | none => simp only [enterMapped mapping across, across.settings]

theorem commitMapped (f : Frame E) :
    (f.mapped φ).commit other = ((f.commit level).1, (f.commit level).2.mapped φ) := by
  have made := mapping.commit f.host
  have host : (f.mapped φ).host = φ f.host := rfl
  simp only [commit, across.depth, host, made]
  split
  · rfl
  · cases Host.commit f.host with
    | mk answer after =>
      cases answer with
      | error fault => rfl
      | ok _ =>
        simp only [mapping.clear]
        rfl

theorem stepMapped (f : Frame E) (op : Operation) :
    (f.mapped φ).step other op = ((f.step level op).1, (f.step level op).2.1.mapped φ, (f.step level op).2.2) := by
  cases op with
  | query q => simp only [step, queryMapped mapping]
  | update u => simp only [step, updateMapped mapping]
  | ask p =>
    cases p with
    | depth => simp only [step, ask, across.depth]
    | settings => simp only [step, ask, across.settings]
    | meter | reports => rfl
    | debug => simp only [step, ask, mapped, mapping.isDebug]
  | consumeGas _ | setGasLimit _ => rfl
  | commit => simp only [step, commitMapped mapping across]
  | call c => exact callMapped mapping across f c
  | deploy d => exact deployMapped mapping across f d

end Frame

theorem Invocation.admittedMapped {level : Level ν E} {other : Level ν F} (across : level.Mapping φ other) (f : Frame E)
    (i : Invocation) : i.admitted? other (f.mapped φ) = i.admitted? level f := by
  cases i with
  | call c =>
    have found : Host.code? (f.mapped φ).host c.contract = Host.code? f.host c.contract := mapping.code _ _
    simp only [admitted?, found, across.settings]
    rfl
  | deploy d =>
    simp only [admitted?, Frame.queryMapped mapping]
    cases f.query (.addressOfCode d.code d.args d.nonce) with
    | mk answer paid =>
      cases answer with
      | error fault => rfl
      | ok derived =>
        have found : Host.codeHash? (paid.mapped φ).host derived.value = Host.codeHash? paid.host derived.value :=
          mapping.codeHash _ _
        simp only [found, across.settings]

theorem Program.execMapped {level : Level ν E} {other : Level ν F} (across : level.Mapping φ other)
    (p : Program ν (Option Bytes)) (f : Frame E) : p.exec other (f.mapped φ) = (p.exec level f).mapped φ := by
  induction p generalizing f with
  | ret output | raise fault | panic text => rfl
  | note n next ih =>
    simp only [exec, ih]
    rfl
  | perform op next ih =>
    simp only [exec, Frame.stepMapped mapping across, ih]
    rfl

namespace Boundary

variable (b : Boundary ν)

theorem levelMapping (room depth : Nat) : Level.Mapping φ (b.level room depth) (b.level room depth) := by
  induction room generalizing depth with
  | zero => exact ⟨rfl, rfl, fun _ => rfl, nofun⟩
  | succ room ih =>
    refine ⟨rfl, rfl, nofun, ?_⟩
    rintro _ ⟨⟩
    refine ⟨_, rfl, fun host activation => ?_⟩
    exact (b.interpreter activation).execMapped mapping (ih (depth + 1)) (Frame.ofLimit host activation.gasLimit)

theorem runMapped (host : E) (attempt : Attempt) (activation : Activation) :
    let ran := b.run host attempt activation
    b.run (φ host) attempt activation = (ran.1, φ ran.2.1, ran.2.2) := by
  have top := b.levelMapping mapping b.settings.maxCallDepth.toNat 0
  have ended := (b.interpreter activation).execMapped mapping top (Frame.ofLimit host activation.gasLimit)
  have begun : Frame.ofLimit (φ host) activation.gasLimit = (Frame.ofLimit host activation.gasLimit).mapped φ := rfl
  simp only [run, Boundary.top, begun, ended]
  rfl

end Boundary

namespace Launch

variable (b : Boundary ν)

theorem admittedMapped (host : E) (l : Launch) : l.admitted? b (φ host) = l.admitted? b host := by
  cases l with
  | execute contract method args gasLimit => simp only [admitted?, mapping.code]
  | deploy contract code args gasLimit => simp only [admitted?, mapping.codeHash]

theorem preparedMapped (host : E) (l : Launch) : l.prepared (φ host) = φ (l.prepared host) := by
  cases l with
  | execute contract method args gasLimit => rfl
  | deploy contract code args gasLimit => exact mapping.register host code

theorem runMapped (host : E) (l : Launch) :
    l.run b (φ host) = ((l.run b host).1, φ (l.run b host).2.1, (l.run b host).2.2) := by
  cases l with
  | execute contract method args gasLimit =>
    simp only [run, Boundary.execute, mapping.code]
    cases Host.code? host contract with
    | none => rfl
    | some code => exact b.runMapped mapping host _ _
  | deploy contract code args gasLimit =>
    simp only [run, Boundary.deploy, mapping.codeHash]
    cases Host.codeHash? host contract with
    | some hash => rfl
    | none => simp only [mapping.register, b.runMapped mapping]

end Launch
end CallBoundary
