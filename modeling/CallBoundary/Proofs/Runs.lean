import CallBoundary.Boundary
/-! Runs of frames, whatever is interpreted. What single operations do to a frame, programs do, and
what the frames called from a level do is known once it is known for each level from the levels
below it; so a property of frames is shown by one operation at a level, given the level below. The
property may speak of what happened on the way as well. -/
namespace CallBoundary

variable {ν E : Type} [Host E]

theorem Program.execTraces {level : Level ν E} {R : Frame E → Trace ν → Frame E → Prop} (stays : ∀ f, R f [] f)
    (notes : ∀ {f after t} n, R f t after → R f (.noted n :: t) after)
    (performs : ∀ {f after t} op, R (f.step level op).2.1 t after →
      R f ((f.step level op).2.2 ++ .performed op (f.step level op).1 :: t) after)
    (p : Program ν (Option Bytes)) (f : Frame E) : R f (p.exec level f).trace (p.exec level f).toFrame := by
  induction p generalizing f with
  | ret output => exact stays f
  | raise fault => exact stays f
  | panic text => exact stays f
  | note n next ih => exact notes n (ih f)
  | perform op next ih => exact performs op (ih (f.step level op).1 (f.step level op).2.1)

theorem Program.execJoins {level : Level ν E} {R : Frame E → Frame E → Prop} (stays : ∀ f, R f f)
    (joins : ∀ {a b c}, R a b → R b c → R a c) (step : ∀ f op, R f (f.step level op).2.1)
    (p : Program ν (Option Bytes)) (f : Frame E) : R f (p.exec level f).toFrame :=
  p.execTraces (R := fun before _ after => R before after) stays (fun _ later => later)
    (fun op later => joins (step _ op) later) f

namespace Level

def Guarantees (level : Level ν E) (R : Nat → Frame E → Frame E → Prop) : Prop :=
  ∀ run, level.enter = some run → ∀ host activation,
    R (level.depth + 1) (Frame.ofLimit host activation.gasLimit) (run host activation).toFrame

def Traces (level : Level ν E) (R : Frame E → Trace ν → Frame E → Prop) : Prop :=
  ∀ run, level.enter = some run → ∀ host activation,
    R (Frame.ofLimit host activation.gasLimit) (run host activation).trace (run host activation).toFrame

end Level

namespace Boundary

variable (b : Boundary ν)

theorem levelDepth (room depth : Nat) : (b.level room depth : Level ν E).depth = depth := by
  cases room <;> rfl

theorem guarantees {R : Nat → Frame E → Frame E → Prop} (stays : ∀ depth f, R depth f f)
    (joins : ∀ {depth a b c}, R depth a b → R depth b c → R depth a c)
    (step : ∀ level : Level ν E, level.Guarantees R → ∀ f op, R level.depth f (f.step level op).2.1)
    (room depth : Nat) : (b.level room depth : Level ν E).Guarantees R := by
  -- Each level down there is less room and more depth.
  induction room generalizing depth with
  | zero =>
    intro run runs
    cases runs
  | succ inner ih =>
    intro run runs host activation
    cases runs
    have below := step (b.level inner (depth + 1)) (ih (depth + 1))
    rw [levelDepth] at below
    exact Program.execJoins (stays (depth + 1)) joins below (b.interpreter activation) _

-- What is to be shown of single operations at every level for a property to hold of all runs: the property may be
-- relied on for the frames that run below.
structure Tracing (R : Frame E → Trace ν → Frame E → Prop) : Prop where
  stays : ∀ f, R f [] f
  notes : ∀ {f after t} n, R f t after → R f (.noted n :: t) after
  performs : ∀ room depth, (b.level room depth : Level ν E).Traces R → ∀ {f after t} op,
    R (f.step (b.level room depth) op).2.1 t after →
      R f ((f.step (b.level room depth) op).2.2 ++ .performed op (f.step (b.level room depth) op).1 :: t) after

namespace Tracing

variable {b} {R : Frame E → Trace ν → Frame E → Prop}

theorem below (h : b.Tracing R) (room depth : Nat) : (b.level room depth : Level ν E).Traces R := by
  induction room generalizing depth with
  | zero =>
    intro run runs
    cases runs
  | succ inner ih =>
    intro run runs host activation
    cases runs
    exact Program.execTraces h.stays h.notes (h.performs inner (depth + 1) (ih (depth + 1))) (b.interpreter activation) _

theorem exec (h : b.Tracing R) (room depth : Nat) (p : Program ν (Option Bytes)) (f : Frame E) :
    R f (p.exec (b.level room depth) f).trace (p.exec (b.level room depth) f).toFrame :=
  p.execTraces h.stays h.notes (h.performs room depth (h.below room depth)) f

theorem execTop (h : b.Tracing R) (p : Program ν (Option Bytes)) (f : Frame E) :
    R f (p.exec b.top f).trace (p.exec b.top f).toFrame :=
  h.exec b.settings.maxCallDepth.toNat 0 p f

end Tracing
end Boundary
end CallBoundary
