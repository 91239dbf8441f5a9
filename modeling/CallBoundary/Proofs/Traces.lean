import CallBoundary.Proofs.Exhaustion
import CallBoundary.Proofs.Invocations
import CallBoundary.Proofs.Runs
/-! Traces as trees. A frame that ran is an item of the trace of its caller and holds a trace of its
own; induction on a trace goes through both. -/
namespace CallBoundary

variable {ν : Type}

namespace Trace

@[elab_as_elim]
theorem nestedInduction {P : Trace ν → Prop} (nil : P []) (noted : ∀ n rest, P rest → P (.noted n :: rest))
    (performed : ∀ op answer rest, P rest → P (.performed op answer :: rest))
    (underivable : ∀ contract fault rest, P rest → P (.underivable contract fault :: rest))
    (ran : ∀ depth activation items ending meter commitFault rest, P items → P rest →
      P (.ran depth activation items ending meter commitFault :: rest)) (t : Trace ν) : P t :=
  match t with
  | [] => nil
  | .noted n :: rest => noted n rest (nestedInduction nil noted performed underivable ran rest)
  | .performed op answer :: rest => performed op answer rest (nestedInduction nil noted performed underivable ran rest)
  | .underivable contract fault :: rest =>
    underivable contract fault rest (nestedInduction nil noted performed underivable ran rest)
  | .ran depth activation items ending meter commitFault :: rest =>
    ran depth activation items ending meter commitFault rest
      (nestedInduction nil noted performed underivable ran items) (nestedInduction nil noted performed underivable ran rest)
termination_by sizeOf t

def verdict (ending : Ending) (meter : Meter) (commitFault : Option Fault) : Result :=
  if meter.exhausted then .error .outOfGas
  else
    match commitFault with
    | some fault => .error (Failure.ofFault fault)
    | none => ending.result

theorem verdictUncommitted {E : Type} (f : Finished ν E) : verdict f.ending f.meter none = f.result := rfl

def Item.items : Item ν → Trace ν
  | .ran _ _ items _ _ _ => items
  | _ => []

inductive Within (item : Item ν) : Trace ν → Prop
  | here (rest : Trace ν) : Within item (item :: rest)
  | later {rest : Trace ν} (other : Item ν) (found : Within item rest) : Within item (other :: rest)
  | inside {other : Item ν} (rest : Trace ν) (found : Within item other.items) : Within item (other :: rest)

theorem withinAppend {item : Item ν} {s t : Trace ν} (found : Within item (s ++ t)) : Within item s ∨ Within item t := by
  induction s with
  | nil => exact .inr found
  | cons first rest ih =>
    cases found with
    | here _ => exact .inl (.here rest)
    | later _ found => exact (ih found).imp_left (.later first)
    | inside _ found => exact .inl (.inside rest found)

section

variable (count : (op : Operation) → op.Answer → Nat) (enters : Result → Bool)

mutual
def Item.tally : Item ν → Nat
  | .performed op answer => count op answer
  | .ran _ _ items ending meter commitFault => if enters (verdict ending meter commitFault) then tally items else 0
  | _ => 0

def tally : List (Item ν) → Nat
  | [] => 0
  | item :: rest => item.tally + tally rest
end

theorem tallyAppend (s t : Trace ν) : tally count enters (s ++ t) = tally count enters s + tally count enters t := by
  induction s with
  | nil => simp [tally]
  | cons item rest ih => simp only [List.cons_append, tally, ih, Nat.add_assoc]

theorem tallyLe {count more : (op : Operation) → op.Answer → Nat} {enters admits : Result → Bool}
    (counts : ∀ op answer, count op answer ≤ more op answer) (wider : ∀ r, enters r = true → admits r = true)
    (t : Trace ν) : tally count enters t ≤ tally more admits t := by
  induction t using nestedInduction with
  | nil => exact Nat.le_refl _
  | noted n rest ih => exact Nat.add_le_add_left ih _
  | performed op answer rest ih => exact Nat.add_le_add (counts op answer) ih
  | underivable contract fault rest ih => exact Nat.add_le_add_left ih _
  | ran depth activation items ending meter commitFault rest inner outer =>
    refine Nat.add_le_add ?_ outer
    simp only [Item.tally]
    split
    · rename_i entered
      rw [if_pos (wider _ entered)]
      exact inner
    · exact Nat.zero_le _

theorem tallyNothing {t : Trace ν} (none : ∀ op answer, t.Within (.performed op answer) → count op answer = 0) :
    tally count enters t = 0 := by
  induction t using nestedInduction with
  | nil => rfl
  | noted n rest ih => simpa [tally, Item.tally] using ih fun op answer found => none op answer (.later _ found)
  | performed op answer rest ih =>
    have here := none op answer (.here rest)
    simpa [tally, Item.tally, here] using ih fun op answer found => none op answer (.later _ found)
  | underivable contract fault rest ih =>
    simpa [tally, Item.tally] using ih fun op answer found => none op answer (.later _ found)
  | ran depth activation items ending meter commitFault rest inner outer =>
    have inside := inner fun op answer found => none op answer (.inside rest found)
    simpa [tally, Item.tally, inside] using outer fun op answer found => none op answer (.later _ found)

end

def Item.fault? : Item ν → Option Fault
  | .noted _ => none
  | .performed op answer => op.fault? answer
  | .underivable _ fault => some fault
  | .ran _ _ _ _ _ commitFault => commitFault

end Trace

namespace Invocation

def performed (answer : Except Fault Outcome) : Invocation → Trace.Item ν
  | call c => .performed (.call c) answer
  | deploy d => .performed (.deploy d) answer

end Invocation

namespace Frame

open Trace

variable {E : Type} [Host E]

theorem closeVerdict (callee : Finished ν E) :
    verdict callee.ending callee.meter (close callee).2.2 = (close callee).1 := by
  cases exhausted : callee.meter.exhausted with
  | true => simp [verdict, close, Finished.result, exhausted]
  | false =>
    cases ended : callee.ending.result with
    | error failure => simp [verdict, close, Finished.result, exhausted, ended]
    | ok output =>
      cases committed : Host.commit callee.host with
      | mk answer host => cases answer <;> simp [verdict, close, Finished.result, exhausted, ended, committed]

end Frame

theorem Level.calleeTraced {E : Type} [Host E] {level : Level ν E} {R : Frame E → Trace ν → Frame E → Prop}
    (below : level.Traces R) {host : E} {amount : Amount} {activation : Activation} {callee : Finished ν E}
    (runs : level.callee? host amount activation = some callee) :
    ∃ child, activation.opened? host amount = some child ∧
      R (Frame.ofLimit child activation.gasLimit) callee.trace callee.toFrame := by
  simp only [Level.callee?, Option.bind_eq_bind, Option.bind_eq_some_iff, Option.some.injEq] at runs
  obtain ⟨run, deeper, child, opened, rfl⟩ := runs
  exact ⟨child, opened, below run deeper child activation⟩

theorem Boundary.tracingPerformed {E : Type} [Host E] (b : Boundary ν) {P : (op : Operation) → op.Answer → Prop}
    (each : ∀ (level : Level ν E) (f : Frame E) op, P op (f.step level op).1) :
    b.Tracing fun (_ : Frame E) t _ => ∀ op answer, t.Within (.performed op answer) → P op answer where
  stays f := fun op answer absent => by cases absent
  notes n later := by
    intro op answer found
    cases found with
    | later _ found => exact later op answer found
    | inside _ found => cases found
  performs room depth below f after t op later := by
    have invoked (i : Invocation) (other : Operation) (answer : other.Answer)
        (found : Trace.Within (.performed other answer) (i.perform (b.level room depth) f).2.2) : P other answer := by
      have ended := i.performEnded (b.level room depth) f
      generalize i.perform (b.level room depth) f = result at ended found
      cases ended with
      | starved | declined => cases found
      | underivable =>
        cases found with
        | later _ found => cases found
        | inside _ found => cases found
      | ran activation callee meter admitted runs =>
        obtain ⟨child, -, inside⟩ := Level.calleeTraced below runs
        cases found with
        | later _ found => cases found
        | inside _ found => exact inside other answer found
    intro other answer found
    rcases Trace.withinAppend found with before | own
    · cases op with
      | call c => exact invoked (.call c) other answer before
      | deploy d => exact invoked (.deploy d) other answer before
      | query _ | update _ | ask _ | consumeGas _ | setGasLimit _ | commit => cases before
    · cases own with
      | here _ => exact each (b.level room depth) f op
      | later _ found => exact later other answer found
      | inside _ found => cases found

end CallBoundary
