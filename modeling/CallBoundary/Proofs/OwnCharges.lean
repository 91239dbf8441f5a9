import CallBoundary.Proofs.Consumption
import CallBoundary.Proofs.Counting
import CallBoundary.Proofs.Metering
/-! What a frame is charged for: its own metered operations and what it charges itself by hand. The frames it calls have
meters of their own, and nothing that happens in them comes back to the caller's. A deployment costs the one who asks for
it the address, and nothing else. So the consumption of a frame is the sum of its own charges, as far as a count goes. -/
namespace CallBoundary

namespace Gas

theorem totalAppend (charges more : List Gas) : total (charges ++ more) = total charges + total more := by
  simp only [total, List.map_append, List.sum_append]

end Gas

namespace Meter

def taken (m : Meter) : List Gas → List Gas
  | [] => []
  | gas :: rest => gas :: if (m.consume gas).exhausted then [] else (m.consume gas).taken rest

theorem consumeAllTaken (m : Meter) (charges : List Gas) :
    (m.consumeAll charges).consumed.toNat = min (m.consumed.toNat + Gas.total (m.taken charges)) Gas.greatest := by
  induction charges generalizing m with
  | nil =>
    have bound := Gas.toNatLe m.consumed
    simp only [consumeAll, taken, Gas.total, List.map_nil, List.sum_nil]
    omega
  | cons gas rest ih =>
    have first : (m.consume gas).consumed.toNat = min (m.consumed.toNat + gas.toNat) Gas.greatest := Gas.plusToNat _ _
    simp only [consumeAll, taken, Gas.totalCons]
    split
    · exact first
    · rw [ih, first]
      omega

theorem takenSpared {m : Meter} {charges : List Gas} (spared : (m.consumeAll charges).exhausted = false) :
    m.taken charges = charges := by
  induction charges generalizing m with
  | nil => rfl
  | cons gas rest ih =>
    simp only [consumeAll] at spared
    simp only [taken]
    split at spared
    · rename_i exhausted
      rw [exhausted] at spared
      cases spared
    · rename_i passed
      rw [if_neg passed, ih spared]

theorem takenTotalLe (m : Meter) (charges : List Gas) : Gas.total (m.taken charges) ≤ Gas.total charges := by
  induction charges generalizing m with
  | nil => exact Nat.le_refl _
  | cons gas rest ih =>
    simp only [taken, Gas.totalCons]
    split
    · exact Nat.add_le_add_left (Nat.zero_le _) _
    · exact Nat.add_le_add_left (ih _) _

end Meter

-- What an operation asks of the meter of the frame that performs it. A request that is refused for its key asks
-- nothing; and of a deployment only the address is paid for by the frame that deploys, of a call nothing.
def Overlay.charges (o : Overlay) : Operation → List Gas
  | .query q => if (queryFault? q).isSome then [] else o.queryCharges q
  | .update u => if (updateFault? u).isSome then [] else [o.updateCharge u]
  | .deploy d => o.queryCharges (.addressOfCode d.code d.args d.nonce)
  | .consumeGas gas => [gas]
  | .ask _ | .setGasLimit _ | .commit | .call _ => []

namespace Overlay

variable (o : Overlay) (m : Meter)

theorem queryMeter (q : Query) : (o.query m q).2 = m.consumeAll (o.charges (.query q)) := by
  simp only [query, charges]
  cases queryFault? q with
  | some fault => rfl
  | none =>
    dsimp only
    split <;> rfl

theorem updateMeter (u : Update) : (o.update m u).2.1 = m.consumeAll (o.charges (.update u)) := by
  simp only [update, charges]
  cases updateFault? u with
  | some fault => rfl
  | none =>
    simp only [Option.isSome_none, Bool.false_eq_true, if_false, m.consumeAllSingle]
    split <;> rfl

theorem addressCharges (d : Deployment) :
    o.charges (.deploy d) = [o.own.tariff.hashCost d.code.length, o.own.tariff.derivation] := rfl

end Overlay

structure Meter.Charged (charges : List Gas) (before after : Meter) : Prop where
  consumed : after.consumed.toNat = min (before.consumed.toNat + Gas.total charges) Gas.greatest
  limit : after.limit = before.limit

namespace Meter

theorem chargedNothing (m : Meter) : Charged [] m m where
  consumed := by
    have bound := Gas.toNatLe m.consumed
    simp only [Gas.total, List.map_nil, List.sum_nil]
    omega
  limit := rfl

theorem chargedTaken (m : Meter) (charges : List Gas) : Charged (m.taken charges) m (m.consumeAll charges) :=
  ⟨m.consumeAllTaken charges, m.consumeAllLimit charges⟩

end Meter

def Operation.byHand : Operation → List Gas
  | .consumeGas gas => [gas]
  | _ => []

def Frame.charged (f : Frame Overlay) (op : Operation) : List Gas :=
  if f.meter.exhausted then op.byHand else f.meter.taken (f.host.charges op)

def Issued.charged (i : Issued Overlay) : List Gas := i.frame.charged i.op

namespace Frame

variable {ν : Type} (level : Level ν Overlay) (f : Frame Overlay)

theorem queryCharged (q : Query) : Meter.Charged (f.charged (.query q)) f.meter (f.query q).2.meter := by
  cases exhausted : f.meter.exhausted with
  | true =>
    rw [queryExhausted exhausted, charged, exhausted]
    exact f.meter.chargedNothing
  | false =>
    have asked : (f.query q).2.meter = (f.host.query f.meter q).2 := by
      rw [querySpared exhausted]
      exact recordIfMeter _ _ _
    rw [asked, Overlay.queryMeter, charged, exhausted]
    exact f.meter.chargedTaken _

theorem updateCharged (u : Update) : Meter.Charged (f.charged (.update u)) f.meter (f.update u).2.meter := by
  cases exhausted : f.meter.exhausted with
  | true =>
    rw [updateExhausted exhausted, charged, exhausted]
    exact f.meter.chargedNothing
  | false =>
    have made : (f.update u).2.meter = (f.host.update f.meter u).2.1 := by
      rw [updateSpared exhausted]
      exact recordIfMeter _ _ _
    rw [made, Overlay.updateMeter, charged, exhausted]
    exact f.meter.chargedTaken _

theorem consumeGasCharged (gas : Gas) :
    Meter.Charged (f.charged (.consumeGas gas)) f.meter (f.consumeGas gas).2.meter := by
  have single : f.charged (.consumeGas gas) = f.meter.taken [gas] := by
    simp only [charged, Operation.byHand, Overlay.charges, Meter.taken]
    split <;> split <;> rfl
  have charged := f.meter.chargedTaken [gas]
  rw [Meter.consumeAllSingle] at charged
  rw [single]
  exact charged

theorem deployCharged (d : Deployment) :
    Meter.Charged (f.charged (.deploy d)) f.meter (f.deploy level d).2.1.meter := by
  rw [deployMeter]
  exact f.queryCharged (.addressOfCode d.code d.args d.nonce)

theorem uncharged {op : Operation} (free : f.host.charges op = []) (unforced : op.byHand = []) : f.charged op = [] := by
  simp only [charged, free, unforced, Meter.taken, ite_self]

theorem stepConsumed (op : Operation) :
    (f.step level op).2.1.meter.consumed.toNat =
      min (f.meter.consumed.toNat + Gas.total (f.charged op)) Gas.greatest := by
  have still (free : f.host.charges op = []) (unforced : op.byHand = [])
      (kept : (f.step level op).2.1.meter.consumed = f.meter.consumed) :
      (f.step level op).2.1.meter.consumed.toNat =
        min (f.meter.consumed.toNat + Gas.total (f.charged op)) Gas.greatest := by
    rw [kept, f.uncharged free unforced]
    exact f.meter.chargedNothing.consumed
  cases op with
  | query q => exact (f.queryCharged q).consumed
  | update u => exact (f.updateCharged u).consumed
  | consumeGas gas => exact (f.consumeGasCharged gas).consumed
  | deploy d => exact (f.deployCharged level d).consumed
  | call c => exact still rfl rfl (congrArg Meter.consumed (f.callMeter level c))
  | commit => exact still rfl rfl (congrArg Meter.consumed (f.commitMeter level))
  | ask p => exact still rfl rfl rfl
  | setGasLimit limit => exact still rfl rfl rfl

end Frame

theorem Program.execConsumed {ν : Type} (level : Level ν Overlay) (p : Program ν (Option Bytes)) (f : Frame Overlay) :
    (p.exec level f).meter.consumed.toNat =
      min (f.meter.consumed.toNat + Gas.total ((p.issues level f).flatMap Issued.charged)) Gas.greatest := by
  induction p generalizing f with
  | ret output | raise fault | panic text => exact f.meter.chargedNothing.consumed
  | note n next ih => exact ih f
  | perform op next ih =>
    have first := f.stepConsumed level op
    have later := ih (f.step level op).1 (f.step level op).2.1
    simp only [exec, issues, List.flatMap_cons, Gas.totalAppend]
    rw [later, first]
    simp only [Issued.charged, Level.issue]
    omega

namespace Frame

variable {ν : Type}

def addressCost (f : Frame Overlay) (d : Deployment) : Nat :=
  (f.host.own.tariff.hashCost d.code.length).toNat + f.host.own.tariff.derivation.toNat

structure AddressPaid (f after : Frame Overlay) (inside : Trace ν) (cost : Nat) (answer : Except Fault Outcome) : Prop where
  limit : after.meter.limit = f.meter.limit
  rises : f.meter.consumed.toNat ≤ after.meter.consumed.toNat
  atMost : after.meter.consumed.toNat ≤ min (f.meter.consumed.toNat + cost) Gas.greatest
  inFull : answer.isOk → after.meter.consumed.toNat = min (f.meter.consumed.toNat + cost) Gas.greatest
  starved : ∀ fault, answer = .error fault →
    fault = .outOfGas ∧ after = { f with meter := after.meter } ∧ inside = []

theorem addressChargesTotal (f : Frame Overlay) (d : Deployment) :
    Gas.total (f.host.charges (.deploy d)) = f.addressCost d := by
  simp only [Overlay.addressCharges, Gas.total, List.map_cons, List.map_nil, List.sum_cons, List.sum_nil, addressCost,
    Nat.add_zero]

inductive AddressAsked (f : Frame Overlay) (d : Deployment) : Except Fault (Metered Address) × Frame Overlay → Prop
  | starved (meter : Meter) (part : Gas.total (f.charged (.deploy d)) ≤ f.addressCost d) :
      AddressAsked f d (.error .outOfGas, { f with meter })
  | paid (derived : Metered Address) (meter : Meter) (whole : Gas.total (f.charged (.deploy d)) = f.addressCost d) :
      AddressAsked f d (.ok derived, { f with meter })

theorem addressAsked (f : Frame Overlay) (d : Deployment) :
    f.AddressAsked d (f.query (.addressOfCode d.code d.args d.nonce)) := by
  have total := f.addressChargesTotal d
  cases exhausted : f.meter.exhausted with
  | true =>
    have nothing : f.charged (.deploy d) = [] := by simp only [charged, exhausted, if_true, Operation.byHand]
    rw [queryExhausted exhausted]
    exact .starved f.meter (nothing ▸ Nat.zero_le _)
  | false =>
    have taken : f.charged (.deploy d) = f.meter.taken (f.host.charges (.deploy d)) := if_neg (ne_true_of_eq_false exhausted)
    have ended : f.host.QueryEnded f.meter _ (Host.query f.host f.meter (.addressOfCode d.code d.args d.nonce)) :=
      f.host.queryEnded f.meter _
    rw [querySpared exhausted]
    generalize Host.query f.host f.meter (.addressOfCode d.code d.args d.nonce) = result at ended
    cases ended with
    | refused message early => cases early
    | starved => exact .starved _ (taken ▸ total ▸ f.meter.takenTotalLe _)
    | answered passed spared =>
      have all : f.meter.taken (f.host.charges (.deploy d)) = f.host.charges (.deploy d) := Meter.takenSpared spared
      exact .paid _ _ (by rw [taken, all, total])

theorem deployPaid (level : Level ν Overlay) (f : Frame Overlay) (d : Deployment) :
    AddressPaid f (f.deploy level d).2.1 (f.deploy level d).2.2 (f.addressCost d) (f.deploy level d).1 := by
  have asked := f.addressAsked d
  have charged := f.deployCharged level d
  have bound := Gas.toNatLe f.meter.consumed
  unfold deploy at charged ⊢
  generalize f.query (.addressOfCode d.code d.args d.nonce) = result at asked charged ⊢
  obtain ⟨consumed, limit⟩ := charged
  cases asked with
  | starved meter part =>
    refine ⟨limit, by omega, by omega, (fun answered => by cases answered), fun fault unanswered => ?_⟩
    cases unanswered
    exact ⟨rfl, rfl, rfl⟩
  | paid derived meter whole =>
    refine ⟨limit, by omega, by omega, (fun _ => by rw [consumed, whole]), fun fault unanswered => ?_⟩
    dsimp only at unanswered
    split at unanswered <;> cases unanswered

/-- The meter of a frame is its own. A call leaves it as it was, limit and consumption, whatever is called and whatever that
does with its own meter and further calls. A deployment adds the cost of the address and no more. What a frame has
consumed in the end is thus what it has been charged itself, for what it asked of its host and by its own hand. -/
theorem metersApart (ν : Type) :
    (∀ (E : Type) [Host E] (level : Level ν E) (f : Frame E) (c : Call), (f.call level c).2.1.meter = f.meter) ∧
      (∀ (level : Level ν Overlay) (f : Frame Overlay) (d : Deployment),
        let asked := f.deploy level d
        AddressPaid f asked.2.1 asked.2.2 (f.addressCost d) asked.1) ∧
      ∀ (level : Level ν Overlay) (p : Program ν (Option Bytes)) (f : Frame Overlay),
        (p.exec level f).meter.consumed.toNat =
          min (f.meter.consumed.toNat + Gas.total ((p.issues level f).flatMap Issued.charged)) Gas.greatest :=
  ⟨fun _ _ level f c => f.callMeter level c, deployPaid, Program.execConsumed⟩

end Frame
end CallBoundary
