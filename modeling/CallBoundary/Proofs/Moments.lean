import CallBoundary.Proofs.Launches
import Mathlib.Logic.Relation
/-! Runs step by step. A moment is a frame with what is left of its program. It leads on to the next one
of the same frame, and also, where an invocation comes to run, into the frame that is opened for it:
so what is later than a moment lies in its own frame or in those derived from it from then on. -/
namespace CallBoundary

structure Moment (ν E : Type) where
  room : Nat
  depth : Nat
  rest : Program ν (Option Bytes)
  frame : Frame E

def Invocation.operation : Invocation → Operation
  | call c => .call c
  | deploy d => .deploy d

variable {ν E : Type} [Host E]

theorem Frame.stepInvocation (level : Level ν E) (f : Frame E) (i : Invocation) :
    (f.step level i.operation).2 = (i.perform level f).2 := by
  cases i <;> rfl

namespace Boundary

variable (b : Boundary ν)

inductive Moves : Moment ν E → Moment ν E → Prop
  | noted {room depth : Nat} (n : ν) (next : Program ν (Option Bytes)) (f : Frame E) :
      Moves ⟨room, depth, .note n next, f⟩ ⟨room, depth, next, f⟩
  | performed {room depth : Nat} (op : Operation) (next : op.Answer → Program ν (Option Bytes)) (f : Frame E) :
      Moves ⟨room, depth, .perform op next, f⟩
        ⟨room, depth, next (f.step (b.level room depth) op).1, (f.step (b.level room depth) op).2.1⟩
  | entered {room depth : Nat} (i : Invocation) (next : i.operation.Answer → Program ν (Option Bytes)) (f : Frame E)
      {activation : Activation} {child : E} (admitted : i.admitted? (b.level (room + 1) depth) f = some activation)
      (opened : activation.opened? f.host i.amount = some child) :
      Moves ⟨room + 1, depth, .perform i.operation next, f⟩
        ⟨room, depth + 1, b.interpreter activation, Frame.ofLimit child activation.gasLimit⟩

def Later : Moment ν E → Moment ν E → Prop := Relation.ReflTransGen b.Moves

theorem execLater (room depth : Nat) (p : Program ν (Option Bytes)) (f : Frame E) :
    ∃ last, b.Later ⟨room, depth, p, f⟩ last ∧ last.frame = (p.exec (b.level room depth) f).toFrame := by
  induction p generalizing f with
  | ret output => exact ⟨_, .refl, rfl⟩
  | raise fault => exact ⟨_, .refl, rfl⟩
  | panic text => exact ⟨_, .refl, rfl⟩
  | note n next ih =>
    obtain ⟨last, later, ended⟩ := ih f
    exact ⟨last, .head (.noted n next f) later, ended⟩
  | perform op next ih =>
    obtain ⟨last, later, ended⟩ := ih (f.step (b.level room depth) op).1 (f.step (b.level room depth) op).2.1
    exact ⟨last, .head (.performed op next f) later, ended⟩

theorem calleeLater {room depth : Nat} {f : Frame E} {i : Invocation} {callee : Finished ν E}
    (runs : i.callee? (b.level (room + 1) depth) f = some callee)
    (next : i.operation.Answer → Program ν (Option Bytes)) :
    ∃ first last, b.Moves ⟨room + 1, depth, .perform i.operation next, f⟩ first ∧ b.Later first last ∧
      last.frame = callee.toFrame := by
  simp only [Invocation.callee?, Level.callee?, Option.bind_eq_bind, Option.bind_eq_some_iff, Option.some.injEq] at runs
  obtain ⟨activation, admitted, run, deeper, child, opened, rfl⟩ := runs
  cases deeper
  obtain ⟨last, later, ended⟩ := b.execLater room (depth + 1) (b.interpreter activation)
    (Frame.ofLimit child activation.gasLimit)
  exact ⟨_, last, .entered i next f admitted opened, later, ended⟩

theorem enteredTrace {room depth : Nat} {f : Frame E} {i : Invocation} {activation : Activation} {child : E}
    (admitted : i.admitted? (b.level (room + 1) depth) f = some activation)
    (opened : activation.opened? f.host i.amount = some child) :
    let callee := (b.interpreter activation).exec (b.level room (depth + 1)) (Frame.ofLimit child activation.gasLimit)
    (i.perform (b.level (room + 1) depth) f).2.2 =
      [.ran (depth + 1) activation callee.trace callee.ending callee.meter (Frame.close callee).2.2] := by
  intro callee
  obtain ⟨meter, charged⟩ := i.addressedCharges f
  have host : (i.addressed f).host = f.host := by rw [charged]
  have entered := Invocation.performEntered admitted
  rw [entered, Frame.enterOpened rfl (host ▸ opened)]
  rfl

end Boundary

namespace Launch

def start? (b : Boundary ν) (host : E) (l : Launch) : Option (Moment ν E) :=
  (l.admitted? b host).map fun activation =>
    ⟨b.settings.maxCallDepth.toNat, 0, b.interpreter activation, Frame.ofLimit (l.prepared host) activation.gasLimit⟩

theorem runLater (b : Boundary ν) (host : E) (l : Launch) {start : Moment ν E} (starts : l.start? b host = some start) :
    ∃ last, b.Later start last ∧ last.frame.host = (l.run b host).2.1 := by
  obtain ⟨activation, admitted, rfl⟩ := Option.map_eq_some_iff.mp starts
  rw [admittedRuns admitted]
  obtain ⟨last, later, ended⟩ := b.execLater b.settings.maxCallDepth.toNat 0 (b.interpreter activation)
    (Frame.ofLimit (l.prepared host) activation.gasLimit)
  exact ⟨last, later, congrArg Frame.host ended⟩

end Launch
end CallBoundary
