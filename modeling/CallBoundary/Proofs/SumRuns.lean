import CallBoundary.Interpreter.RunningSum
import CallBoundary.Proofs.OwnCharges
/-! One run of the contract that keeps a sum, from the charge for entering it to its end. What it charges is known before
it starts, so the gas limit tells whether it gets to its end. If it does, the one thing it leaves behind is the new sum;
on every other way its environment is what it was. -/
namespace CallBoundary

namespace Meter

def Bears (limit : Gas) (charges : List Gas) : Prop :=
  limit = 0 ∨ min (Gas.total charges) Gas.greatest ≤ limit.toNat

instance (limit : Gas) (charges : List Gas) : Decidable (Bears limit charges) := inferInstanceAs (Decidable (_ ∨ _))

theorem bearsFewer {limit : Gas} {charges rest : List Gas} (bears : Bears limit (charges ++ rest)) : Bears limit charges := by
  rcases bears with unlimited | enough
  · exact .inl unlimited
  · rw [Gas.totalAppend] at enough
    exact .inr (by omega)

variable {charges : List Gas} {limit : Gas} {start m : Meter}

theorem chargedBears (charged : Charged charges (ofLimit limit) m) : m.exhausted = false ↔ Bears limit charges := by
  have spent : m.consumed.toNat = min (Gas.total charges) Gas.greatest := by
    rw [charged.consumed]
    exact congrArg (min · Gas.greatest) (Nat.zero_add _)
  have limits : m.limit.toNat = limit.toNat := congrArg UInt64.toNat charged.limit
  have unlimited : limit = 0 ↔ limit.toNat = 0 := UInt64.toNat_inj.symm
  rw [← Bool.not_eq_true, exhaustedToNat, Bears, unlimited, spent, limits]
  omega

theorem chargedMore (charged : Charged charges start m) (gas : Gas) : Charged (charges ++ [gas]) start (m.consume gas) where
  consumed := by
    have added : (m.consume gas).consumed.toNat = min (m.consumed.toNat + gas.toNat) Gas.greatest := Gas.plusToNat _ _
    have single : Gas.total [gas] = gas.toNat := by simp only [Gas.total, List.map_cons, List.map_nil, List.sum_singleton]
    rw [added, charged.consumed, Gas.totalAppend, single]
    omega
  limit := charged.limit

end Meter

variable {ν E : Type}

def Finished.left (f : Finished ν E) : Result × E := (f.result, f.host)

namespace Program

variable (level : Level ν Overlay) (f : Frame Overlay)

theorem leftRaised (fault : Fault) :
    ((raise fault).exec level f : Finished ν Overlay).left =
      (if f.meter.exhausted then .error .outOfGas else .error (Failure.ofFault fault), f.host) := rfl

theorem leftReturned (output : Option Bytes) :
    ((ret output).exec level f : Finished ν Overlay).left =
      (if f.meter.exhausted then .error .outOfGas else .ok output, f.host) := rfl

theorem leftStarved : ((raise .outOfGas).exec level f : Finished ν Overlay).left = (.error .outOfGas, f.host) := by
  rw [leftRaised]
  exact congrArg (·, f.host) (ite_self _)

theorem leftConsumeGas (gas : Gas) (next : Unit → Program ν (Option Bytes)) :
    ((consumeGas gas >>= next).exec level f).left =
      if (f.meter.consume gas).exhausted then (.error .outOfGas, f.host)
      else ((next ()).exec level { f with meter := f.meter.consume gas }).left := by
  have performed : ((consumeGas gas >>= next).exec level f).left =
      (((ofExcept (f.consumeGas gas).1).bind next).exec level (f.consumeGas gas).2).left := rfl
  rw [performed]
  simp only [Frame.consumeGas]
  split
  · exact leftStarved level _
  · rfl

variable {f}

theorem leftStorage (spared : f.meter.exhausted = false) {key : Bytes} (short : Overlay.keyFault? key = none)
    (next : Metered (Option Bytes) → Program ν (Option Bytes)) :
    let value := f.host.valueAt f.host.contract key
    let charged := f.meter.consume (f.host.own.tariff.readCost (Overlay.lengthOf value))
    ((query (.storage key) >>= next).exec level f).left =
      if charged.exhausted then (.error .outOfGas, f.host)
      else ((next ⟨value, Gas.less charged.consumed f.meter.consumed⟩).exec level { f with meter := charged }).left := by
  intro value charged
  have performed : ((query (.storage key) >>= next).exec level f).left =
      (((ofExcept (f.query (.storage key)).1).bind next).exec level (f.query (.storage key)).2).left := rfl
  have asked : f.host.query f.meter (.storage key) =
      if charged.exhausted then (.error .outOfGas, charged) else (.ok value, charged) := by
    simp only [Overlay.query, Overlay.queryFault?, short, Overlay.queryCharges, Meter.consumeAllSingle]
    rfl
  have hosted : Host.query f.host f.meter (.storage key) = f.host.query f.meter (.storage key) := rfl
  rw [performed, Frame.querySpared spared, hosted, asked]
  split
  · exact leftStarved level _
  · rfl

theorem leftSetStorage (spared : f.meter.exhausted = false) {key : Bytes} (short : Overlay.keyFault? key = none)
    (value : Bytes) (next : Metered Unit → Program ν (Option Bytes)) :
    let charged := f.meter.consume (f.host.own.tariff.writeCost key.length value.length)
    let host := f.host.write fun changes => changes.setStorage ⟨f.host.contract, key⟩ (some value)
    ((update (.setStorage key value) >>= next).exec level f).left =
      if charged.exhausted then (.error .outOfGas, f.host)
      else ((next ⟨(), Gas.less charged.consumed f.meter.consumed⟩).exec level { f with meter := charged, host }).left := by
  intro charged host
  have performed : ((update (.setStorage key value) >>= next).exec level f).left =
      (((ofExcept (f.update (.setStorage key value)).1).bind next).exec level (f.update (.setStorage key value)).2).left :=
    rfl
  have made : f.host.update f.meter (.setStorage key value) =
      if charged.exhausted then (.error .outOfGas, charged, f.host) else (.ok (), charged, host) := by
    simp only [Overlay.update, Overlay.updateFault?, short]
    rfl
  have hosted : Host.update f.host f.meter (.setStorage key value) = f.host.update f.meter (.setStorage key value) := rfl
  rw [performed, Frame.updateSpared spared, hosted, made]
  split
  · exact leftStarved level _
  · rfl

end Program

namespace RunningSum

/-! What a run is charged if it gets to its end, what it comes to while there is gas, and the ways in which it ends. -/

def kept (o : Overlay) : UInt64 := ((o.valueAt o.contract key).bind decode?).getD 0

def due (baseCost : Gas) (o : Overlay) : Entry → List Gas
  | .constructor => [baseCost, o.own.tariff.writeCost key.length 8]
  | .method _ =>
    [baseCost, o.own.tariff.readCost (Overlay.lengthOf (o.valueAt o.contract key)), o.own.tariff.writeCost key.length 8]

inductive Sums (o : Overlay) (a : Activation) : Except Fault UInt64 → Prop
  | unread (absent : operand? a = none) : Sums o a (.error (.failed "expected a u64 argument"))
  | started (operand : UInt64) (read : operand? a = some operand) (entered : a.entry = .constructor) :
      Sums o a (.ok operand)
  | added (operand sum : UInt64) (read : operand? a = some operand) (entered : a.entry = .method "compute")
      (fits : add? (kept o) operand = some sum) : Sums o a (.ok sum)
  | overflowed (operand : UInt64) (read : operand? a = some operand) (entered : a.entry = .method "compute")
      (wide : add? (kept o) operand = none) : Sums o a (.error (.failed "sum overflow"))
  | unknown (operand : UInt64) (name : String) (read : operand? a = some operand) (entered : a.entry = .method name)
      (other : name ≠ "compute") : Sums o a (.error (.failed ("unknown method " ++ name)))

def keep (o : Overlay) (sum : UInt64) : Overlay :=
  o.write fun changes => changes.setStorage ⟨o.contract, key⟩ (some (encode sum))

inductive Ended (baseCost : Gas) (o : Overlay) (a : Activation) : Result × Overlay → Prop
  | starved (charges rest : List Gas) (first : due baseCost o a.entry = charges ++ rest)
      (short : ¬ Meter.Bears a.gasLimit charges) : Ended baseCost o a (.error .outOfGas, o)
  | refused (fault : Fault) (sums : Sums o a (.error fault)) : Ended baseCost o a (.error (Failure.ofFault fault), o)
  | stored (sum : UInt64) (sums : Sums o a (.ok sum)) (borne : Meter.Bears a.gasLimit (due baseCost o a.entry)) :
      Ended baseCost o a (.ok (some (encode sum)), keep o sum)

theorem encodeLength (sum : UInt64) : (encode sum).length = 8 := Bytes.leLength 8 _

variable (level : Level ν Overlay) (f : Frame Overlay) {a : Activation} {baseCost : Gas}

theorem storeEnds {charges : List Gas} (charged : Meter.Charged charges (Meter.ofLimit a.gasLimit) f.meter)
    (spared : f.meter.exhausted = false)
    (last : due baseCost f.host a.entry = charges ++ [f.host.own.tariff.writeCost key.length 8]) {sum : UInt64}
    (sums : Sums f.host a (.ok sum)) : Ended baseCost f.host a ((store sum).exec level f : Finished ν Overlay).left := by
  have all := Meter.chargedMore charged (f.host.own.tariff.writeCost key.length 8)
  have borne := Meter.chargedBears all
  rw [← last] at all borne
  unfold store
  rw [Program.leftSetStorage level spared rfl, encodeLength]
  split
  · rename_i exhausted
    exact .starved _ [] (List.append_nil _).symm fun bears => by simp [borne.mpr bears] at exhausted
  · rename_i passed
    change Ended baseCost f.host a ((Program.ret (some (encode sum))).exec level _).left
    rw [Program.leftReturned, if_neg passed]
    exact .stored sum sums (borne.mp (eq_false_of_ne_true passed))

theorem refusalEnds (spared : f.meter.exhausted = false) {fault : Fault} (sums : Sums f.host a (.error fault)) :
    Ended baseCost f.host a ((Program.raise fault).exec level f : Finished ν Overlay).left := by
  rw [Program.leftRaised, spared]
  exact .refused fault sums

theorem bodyEnds (charged : Meter.Charged [baseCost] (Meter.ofLimit a.gasLimit) f.meter)
    (spared : f.meter.exhausted = false) : Ended baseCost f.host a ((interpreter a).exec level f : Finished ν Overlay).left := by
  unfold interpreter
  cases read : operand? a with
  | none => exact refusalEnds level f spared (.unread read)
  | some operand =>
    cases entered : a.entry with
    | constructor =>
      exact storeEnds level f charged spared (congrArg (due baseCost f.host) entered) (.started operand read entered)
    | method name =>
      by_cases named : name = "compute"
      · subst named
        let reading := f.host.own.tariff.readCost (Overlay.lengthOf (f.host.valueAt f.host.contract key))
        have asked := Meter.chargedMore charged reading
        have costs := congrArg (due baseCost f.host) entered
        dsimp only
        -- The read is charged before it shows whether the sum fits, so gas can run out ahead of an overflow.
        rw [if_pos rfl, Program.leftStorage level spared rfl]
        split
        · rename_i exhausted
          exact .starved [baseCost, reading] [_] costs fun bears => by
            simp [reading, (Meter.chargedBears asked).mpr bears] at exhausted
        · rename_i passed
          let after : Frame Overlay := { f with meter := f.meter.consume reading }
          have left : after.meter.exhausted = false := eq_false_of_ne_true passed
          dsimp only
          cases fits : add? (kept f.host) operand with
          | none =>
            have wide : add? (((f.host.valueAt f.host.contract key).bind decode?).getD 0) operand = none := fits
            rw [wide]
            exact refusalEnds level after left (.overflowed operand read entered fits)
          | some sum =>
            have narrow : add? (((f.host.valueAt f.host.contract key).bind decode?).getD 0) operand = some sum := fits
            rw [narrow]
            exact storeEnds level after asked left costs (.added operand sum read entered fits)
      · dsimp only
        rw [if_neg named]
        exact refusalEnds level f spared (.unknown operand name read entered named)

theorem runEnds (baseCost : Gas) (settings : Settings) (host : Overlay) (attempt : Attempt) (a : Activation) :
    let b : Boundary ν := ⟨Registry.interpreter ⟨[(a.code, interpreter)], baseCost⟩, settings⟩
    let (outcome, after, _) := b.run host attempt a
    Ended baseCost host a (outcome.result, after) := by
  intro b
  let entered : Frame Overlay := { Frame.ofLimit host a.gasLimit with meter := (Meter.ofLimit a.gasLimit).consume baseCost }
  have known : b.interpreter a = (do Program.consumeGas baseCost; interpreter a) :=
    Registry.interpreterKnown a interpreter baseCost
  have charged : Meter.Charged [baseCost] (Meter.ofLimit a.gasLimit) entered.meter :=
    Meter.chargedMore (Meter.ofLimit a.gasLimit).chargedNothing baseCost
  have ended : Ended baseCost host a ((b.interpreter a).exec b.top (Frame.ofLimit host a.gasLimit)).left := by
    rw [known, Program.leftConsumeGas]
    split
    · rename_i exhausted
      have first : due baseCost host a.entry = [baseCost] ++ (due baseCost host a.entry).tail := by cases a.entry <;> rfl
      have spent : entered.meter.exhausted = true := exhausted
      exact .starved [baseCost] _ first fun bears => by simp [(Meter.chargedBears charged).mpr bears] at spent
    · rename_i passed
      exact bodyEnds b.top entered charged (eq_false_of_ne_true passed)
  exact ended

end RunningSum
end CallBoundary
