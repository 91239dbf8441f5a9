import CallBoundary.Proofs.CutLists
import CallBoundary.Proofs.Grounds
import CallBoundary.Proofs.SumRuns
/-! The contract that keeps a sum, from one visit to the next. Each visit finds a root environment of its own over the
store, which is committed if the visit succeeds and dropped if it does not. What is in the store is exact at any time:
the operand of the deployment and those of all visits that succeeded, as a number that never wraps. -/
namespace CallBoundary

def Overlay.storeAfter (root : Overlay) : Result → Store
  | .ok _ => root.commit.store
  | .error _ => root.store

def Launch.settled {ν : Type} (b : Boundary ν) (settings : Settings) (context : Context) (s : Store) (l : Launch) :
    Outcome × Store :=
  let (outcome, root, _) := l.run b (Overlay.root settings { context with contract := l.contract } s)
  (outcome, root.storeAfter outcome.result)

namespace Store

theorem absorbSetStorage (s : Store) (w : Changes) (cell : Cell) (value : Bytes) :
    s.absorb (w.setStorage cell (some value)) =
      { s.absorb w with storage := (s.absorb w).storage.insert cell value } :=
  equalOfContents ((Content.ofStore s).underSetStorage w cell (some value)) rfl rfl rfl

theorem absorbSetCode (s : Store) (w : Changes) (address : Address) (code : Bytes) :
    s.absorb (w.setCode address code) = { s.absorb w with code := (s.absorb w).code.insert address code } :=
  equalOfContents ((Content.ofStore s).underSetCode w address code) rfl rfl rfl

end Store

theorem Arguments.unpackInitial (args : Arguments) : unpack args.pack <+: args := by
  have whole := args.unpackCut args.pack.length
  rw [List.take_length] at whole
  rcases whole with nothing | ⟨kept, -, part⟩
  · exact nothing ▸ List.nil_prefix
  · exact part ▸ args.take_prefix kept

namespace RunningSum

theorem wholeBounded {raw : Bytes} (whole : raw.length = 8) : Bytes.readLe raw < UInt64.size := by
  have below := Bytes.readLeLt raw
  rw [whole] at below
  exact below

theorem decodeSome {raw : Bytes} {value : UInt64} :
    decode? raw = some value ↔ raw.length = 8 ∧ value.toNat = Bytes.readLe raw := by
  unfold decode?
  split
  · rename_i whole
    rw [Option.some.injEq, ← UInt64.toNat_inj, UInt64.toNat_ofNat_of_lt' (wholeBounded whole)]
    exact ⟨fun same => ⟨whole, same.symm⟩, fun same => same.2.symm⟩
  · rename_i short
    exact ⟨fun absent => (by cases absent), fun same => (short same.1).elim⟩

theorem addSome {x y sum : UInt64} :
    add? x y = some sum ↔ x.toNat + y.toNat < UInt64.size ∧ sum.toNat = x.toNat + y.toNat := by
  unfold add?
  split
  · rename_i fits
    have unwrapped : (x + y).toNat = x.toNat + y.toNat := by
      rw [UInt64.toNat_add]
      exact Nat.mod_eq_of_lt fits
    rw [Option.some.injEq, ← UInt64.toNat_inj, unwrapped]
    exact ⟨fun same => ⟨fits, same.symm⟩, fun same => same.2.symm⟩
  · rename_i wide
    exact ⟨fun absent => (by cases absent), fun same => (wide same.1).elim⟩

theorem addNone {x y : UInt64} : add? x y = none ↔ UInt64.size ≤ x.toNat + y.toNat := by
  simp [add?]

/-! The operand of a run is read off the packed arguments, from as many of them as can be unpacked again. -/

section

variable {a : Activation} {args : Arguments} (packed : a.args = args.pack)
include packed

theorem operandGiven {operand : UInt64} (read : operand? a = some operand) :
    ∃ raw, args.head? = some (some raw) ∧ raw.length = 8 ∧ operand.toNat = Bytes.readLe raw := by
  simp only [operand?, Option.bind_eq_bind, Option.bind_eq_some_iff] at read
  obtain ⟨argument, first, raw, present, decoded⟩ := read
  subst present
  obtain ⟨rest, parts⟩ := args.unpackInitial
  have listed : (Arguments.unpack args.pack).head? = some (some raw) := packed ▸ first
  refine ⟨raw, ?_, decodeSome.mp decoded⟩
  rw [← parts, List.head?_append, listed]
  rfl

theorem operandRead (bound : args.Addressable) {raw : Bytes} (first : args.head? = some (some raw))
    (whole : raw.length = 8) : ∃ operand, operand? a = some operand := by
  have unpacked : a.arguments = args := by rw [Activation.arguments, packed, Arguments.unpackPack bound]
  refine ⟨UInt64.ofNat (Bytes.readLe raw), ?_⟩
  simp only [operand?, unpacked, first, decode?, whole, Option.bind_eq_bind, Option.bind_some, if_true]

end

/-! What comes from outside, and what becomes of the store from one visit to the next. -/

structure Approach where
  settings : Settings
  context : Context
  args : Arguments
  gasLimit : Gas

structure Visit extends Approach where
  method : String

variable {ν : Type}

def Approach.root (v : Approach) (address : Address) (s : Store) : Overlay :=
  Overlay.root v.settings { v.context with contract := address } s

def Approach.deploy (b : Boundary ν) (address : Address) (code : Bytes) (s : Store) (opening : Approach) :
    Outcome × Store :=
  (Launch.deploy address code opening.args opening.gasLimit).settled b opening.settings opening.context s

namespace Visit

def operand (v : Visit) : Nat := (v.args.head?.join.map Bytes.readLe).getD 0

def failures (v : Visit) : List Failure :=
  [.outOfGas, .other "expected a u64 argument", .other ("unknown method " ++ v.method), .other "sum overflow"]

variable (b : Boundary ν) (address : Address)

def serve (s : Store) (v : Visit) : Outcome × Store :=
  (Launch.execute address v.method v.args v.gasLimit).settled b v.settings v.context s

def serveAll : Store → List Visit → Store := List.foldl fun s v => (v.serve b address s).2

def log : Store → List Visit → List (Visit × Outcome)
  | _, [] => []
  | s, v :: rest => (v, (v.serve b address s).1) :: log (v.serve b address s).2 rest

end Visit

def gathered (log : List (Visit × Outcome)) : Nat :=
  ((log.filter fun entry => entry.2.isSuccess && entry.1.method = "compute").map fun entry => entry.1.operand).sum

def alone (code : Bytes) (baseCost : Gas) (settings : Settings) : Boundary ν :=
  ⟨Registry.interpreter ⟨[(code, interpreter)], baseCost⟩, settings⟩

structure Holds (code : Bytes) (address : Address) (s : Store) (sum : Nat) : Prop where
  code : s.code[address]? = some code
  stored : s.storage[(⟨address, key⟩ : Cell)]? = some (Bytes.le 8 sum)
  fits : sum < UInt64.size

def resum (s : Store) (address : Address) (sum : Nat) : Store :=
  { s with storage := s.storage.insert ⟨address, key⟩ (Bytes.le 8 sum) }

structure Accepted (baseCost : Gas) (sum : Nat) (v : Visit) (raw : Bytes) : Prop where
  computes : v.method = "compute"
  first : v.args.head? = some (some raw)
  whole : raw.length = 8
  fits : sum + Bytes.readLe raw < UInt64.size
  borne : Meter.Bears v.gasLimit [baseCost, v.settings.tariff.readCost 8, v.settings.tariff.writeCost key.length 8]

-- The result of a visit and the store it leaves. A visit fails only where something is missing that is asked of it;
-- but values too long for a memory need not be read back once they are packed, so this is said of those that fit.
inductive Served (baseCost : Gas) (address : Address) (s : Store) (sum : Nat) (v : Visit) : Result × Store → Prop
  | added (raw : Bytes) (accepted : Accepted baseCost sum v raw) :
      Served baseCost address s sum v
        (.ok (some (Bytes.le 8 (sum + Bytes.readLe raw))), resum s address (sum + Bytes.readLe raw))
  | failed (failure : Failure) (known : failure ∈ v.failures)
      (unaccepted : v.args.Addressable → ∀ raw, ¬ Accepted baseCost sum v raw) :
      Served baseCost address s sum v (.error failure, s)

theorem Accepted.operand {baseCost : Gas} {sum : Nat} {v : Visit} {raw : Bytes} (accepted : Accepted baseCost sum v raw) :
    v.operand = Bytes.readLe raw := by
  rw [Visit.operand, accepted.first]
  rfl

section

variable {code : Bytes} {address : Address} {s : Store} {sum : Nat} {baseCost : Gas}

theorem resumSame (holds : Holds code address s sum) : resum s address sum = s := by
  have storage : s.storage.insert ⟨address, key⟩ (Bytes.le 8 sum) = s.storage := by
    apply Std.ExtTreeMap.ext_getElem?
    intro cell
    rw [Std.ExtTreeMap.getElem?_insert]
    split
    · rename_i same
      rw [← Std.LawfulEqOrd.eq_of_compare same, holds.stored]
    · rfl
  rw [resum, storage]

theorem resumAgain (first second : Nat) : resum (resum s address first) address second = resum s address second := by
  have storage : (s.storage.insert ⟨address, key⟩ (Bytes.le 8 first)).insert ⟨address, key⟩ (Bytes.le 8 second) =
      s.storage.insert ⟨address, key⟩ (Bytes.le 8 second) := by
    apply Std.ExtTreeMap.ext_getElem?
    intro cell
    simp only [Std.ExtTreeMap.getElem?_insert]
    split <;> rfl
  simp only [resum, storage]

theorem resumHolds (present : s.code[address]? = some code) (fits : sum < UInt64.size) :
    Holds code address (resum s address sum) sum where
  code := present
  stored := Std.ExtTreeMap.getElem?_insert_self
  fits := fits

/-! A visit in the root environment opened for it. -/

variable (v : Approach)

theorem rootView : (v.root address s).view = s.view := Changes.emptyOnto s.view

theorem rootValue (holds : Holds code address s sum) : (v.root address s).valueAt address key = some (Bytes.le 8 sum) := by
  have shown : (v.root address s).view.storage ⟨address, key⟩ = some (Bytes.le 8 sum) := by
    rw [rootView]
    exact holds.stored
  rw [Overlay.valueAt, shown]
  rfl

theorem rootKept (holds : Holds code address s sum) : (kept (v.root address s)).toNat = sum := by
  have value := rootValue v holds
  have read : Bytes.readLe (Bytes.le 8 sum) = sum := Bytes.readLeBounded 8 sum holds.fits
  have decoded : decode? (Bytes.le 8 sum) = some (UInt64.ofNat sum) := by
    rw [decode?, Bytes.leLength, if_pos rfl, read]
  have found : kept (v.root address s) = UInt64.ofNat sum := by
    change (((v.root address s).valueAt address key).bind decode?).getD 0 = _
    rw [value, Option.bind_some, decoded]
    rfl
  rw [found, UInt64.toNat_ofNat_of_lt' holds.fits]

theorem keepStored {host : Overlay} (bottom : host.below = []) (sum : UInt64) (output : Option Bytes) :
    (keep host sum).storeAfter (.ok output) = resum (host.store.absorb host.own.changes) host.contract sum.toNat := by
  obtain ⟨own, below, store⟩ := host
  cases bottom
  exact store.absorbSetStorage own.changes ⟨own.context.contract, key⟩ (encode sum)

section

variable {v : Visit} {a : Activation} (holds : Holds code address s sum) (named : a.entry = .method v.method)
  (packed : a.args = v.args.pack)
include holds named packed

theorem refusedServed {fault : Fault} (sums : Sums (v.root address s) a (.error fault)) :
    Served baseCost address s sum v (.error (Failure.ofFault fault), s) := by
  cases sums with
  | unread absent =>
    refine .failed _ (by simp [Visit.failures, Failure.ofFault]) fun bound raw accepted => ?_
    obtain ⟨operand, read⟩ := operandRead packed bound accepted.first accepted.whole
    rw [absent] at read
    cases read
  | overflowed operand read entered wide =>
    refine .failed _ (by simp [Visit.failures, Failure.ofFault]) fun _ raw accepted => ?_
    obtain ⟨given, first, -, value⟩ := operandGiven packed read
    cases first.symm.trans accepted.first
    have large := addNone.mp wide
    rw [rootKept v.toApproach holds, value] at large
    exact Nat.not_lt.mpr large accepted.fits
  | unknown operand name read entered other =>
    cases entered.symm.trans named
    exact .failed _ (by simp [Visit.failures, Failure.ofFault]) fun _ raw accepted => other accepted.computes

theorem storedServed {total : UInt64} (sums : Sums (v.root address s) a (.ok total))
    (borne : Meter.Bears v.gasLimit [baseCost, v.settings.tariff.readCost 8, v.settings.tariff.writeCost key.length 8]) :
    Served baseCost address s sum v (.ok (some (encode total)), resum s address total.toNat) := by
  cases sums with
  | started operand read entered => cases entered.symm.trans named
  | added operand total read entered narrow =>
    obtain ⟨raw, first, whole, value⟩ := operandGiven packed read
    obtain ⟨fits, unwrapped⟩ := addSome.mp narrow
    rw [rootKept v.toApproach holds, value] at fits unwrapped
    have computes : v.method = "compute" := Entry.method.inj (named.symm.trans entered)
    rw [encode, unwrapped]
    exact .added raw ⟨computes, first, whole, fits, borne⟩

theorem endedServed (limited : a.gasLimit = v.gasLimit) {result : Result} {after : Overlay}
    (ended : Ended baseCost (v.root address s) a (result, after)) :
    Served baseCost address s sum v (result, after.storeAfter result) := by
  have costs : due baseCost (v.root address s) a.entry =
      [baseCost, v.settings.tariff.readCost 8, v.settings.tariff.writeCost key.length 8] := by
    rw [named, due]
    change [baseCost, v.settings.tariff.readCost (Overlay.lengthOf ((v.root address s).valueAt address key)), _] = _
    rw [rootValue v.toApproach holds]
    rfl
  cases ended with
  | starved charges rest first short =>
    -- A visit that is accepted bears all that is due, so it bears what was charged until the gas ran out.
    refine .failed _ (by simp [Visit.failures]) fun _ raw accepted => ?_
    have borne := accepted.borne
    rw [← costs, first, ← limited] at borne
    exact short (Meter.bearsFewer borne)
  | refused fault sums => exact refusedServed holds named packed sums
  | stored total sums borne =>
    have left : (keep (v.root address s) total).storeAfter (.ok (some (encode total))) =
        resum (s.absorb Changes.empty) address total.toNat := keepStored rfl total _
    rw [costs, limited] at borne
    rw [left, s.absorbEmpty]
    exact storedServed holds named packed sums borne

end

theorem serveServed (nonempty : code ≠ []) (holds : Holds code address s sum) (settings : Settings) (v : Visit) :
    let b : Boundary ν := alone code baseCost settings
    Served baseCost address s sum v ((v.serve b address s).1.result, (v.serve b address s).2) := by
  intro b
  let root := v.root address s
  let c : Call := ⟨address, v.method, v.args.pack, Amount.zero, [], v.gasLimit⟩
  have shown : root.view.code address = some code := by
    rw [rootView]
    exact holds.code
  have present : Host.code? root address = some code := by
    change (root.view.code address).filter (· ≠ []) = some code
    rw [shown, Option.filter_some, if_pos (decide_eq_true nonempty)]
  have runs : b.execute root address v.method v.args v.gasLimit =
      b.run root c.attempt (c.activation code settings.debug) := by
    simp only [Boundary.execute, present]
    rfl
  have ended := runEnds (ν := ν) baseCost settings root c.attempt (c.activation code settings.debug)
  have served : Served baseCost address s sum v ((b.execute root address v.method v.args v.gasLimit).1.result,
      (b.execute root address v.method v.args v.gasLimit).2.1.storeAfter
        (b.execute root address v.method v.args v.gasLimit).1.result) := by
    rw [runs]
    exact endedServed holds rfl rfl rfl ended
  exact served

theorem servedHolds (holds : Holds code address s sum) {v : Visit} {o : Outcome} {next : Store}
    (served : Served baseCost address s sum v (o.result, next)) :
    Holds code address next (sum + gathered [(v, o)]) ∧ next = resum s address (sum + gathered [(v, o)]) := by
  obtain ⟨contract, gasUsed, report, result⟩ := o
  cases served with
  | added raw accepted =>
    have gained : gathered [(v, ⟨contract, gasUsed, report, .ok (some (Bytes.le 8 (sum + Bytes.readLe raw)))⟩)] =
        Bytes.readLe raw := by
      simp [gathered, Outcome.isSuccess, accepted.computes, accepted.operand]
    rw [gained]
    exact ⟨resumHolds holds.code accepted.fits, rfl⟩
  | failed failure known unaccepted =>
    have nothing : gathered [(v, ⟨contract, gasUsed, report, .error failure⟩)] = 0 := by
      simp [gathered, Outcome.isSuccess]
    rw [nothing]
    exact ⟨holds, (resumSame holds).symm⟩

theorem acceptedGathers {v : Visit} {o : Outcome} {next : Store} (served : Served baseCost address s sum v (o.result, next))
    (bound : v.args.Addressable) {raw : Bytes} (accepted : Accepted baseCost sum v raw) :
    gathered [(v, o)] = Bytes.readLe raw := by
  obtain ⟨contract, gasUsed, report, result⟩ := o
  cases served with
  | added other also =>
    cases also.first.symm.trans accepted.first
    simp [gathered, Outcome.isSuccess, accepted.computes, accepted.operand]
  | failed failure known unaccepted => exact (unaccepted bound raw accepted).elim

theorem refusedGathers {v : Visit} {o : Outcome} {next : Store} (served : Served baseCost address s sum v (o.result, next))
    (unaccepted : ∀ raw, ¬ Accepted baseCost sum v raw) : gathered [(v, o)] = 0 := by
  obtain ⟨contract, gasUsed, report, result⟩ := o
  cases served with
  | added raw accepted => exact (unaccepted raw accepted).elim
  | failed failure known _ => simp [gathered, Outcome.isSuccess]

theorem gatheredCons (entry : Visit × Outcome) (rest : List (Visit × Outcome)) :
    gathered (entry :: rest) = gathered [entry] + gathered rest := by
  simp only [gathered, List.filter_cons]
  split <;> simp

/-! What the visits of a log gather, one after another. -/

section

variable (nonempty : code ≠ []) (holds : Holds code address s sum) (settings : Settings) {v : Visit} (rest : List Visit)
include nonempty holds

theorem firstLogged :
    let b : Boundary ν := alone code baseCost settings
    let gained := gathered [(v, (v.serve b address s).1)]
    gathered (Visit.log b address s (v :: rest)) =
      gained + gathered (Visit.log b address (resum s address (sum + gained)) rest) := by
  intro b gained
  have changed := (servedHolds holds (serveServed nonempty holds settings v : Served baseCost address s sum v
    ((v.serve b address s).1.result, (v.serve b address s).2))).2
  rw [Visit.log, gatheredCons, changed]

theorem acceptedLog (bound : v.args.Addressable) {raw : Bytes} (accepted : Accepted baseCost sum v raw) :
    gathered (Visit.log (alone code baseCost settings : Boundary ν) address s (v :: rest)) =
      Bytes.readLe raw + gathered (Visit.log (alone code baseCost settings : Boundary ν) address
        (resum s address (sum + Bytes.readLe raw)) rest) := by
  rw [firstLogged nonempty holds, acceptedGathers (serveServed nonempty holds settings v) bound accepted]

theorem refusedLog (unaccepted : ∀ raw, ¬ Accepted baseCost sum v raw) :
    gathered (Visit.log (alone code baseCost settings : Boundary ν) address s (v :: rest)) =
      gathered (Visit.log (alone code baseCost settings : Boundary ν) address s rest) := by
  rw [firstLogged nonempty holds, refusedGathers (serveServed nonempty holds settings v) unaccepted, Nat.add_zero,
    resumSame holds, Nat.zero_add]

end

theorem serveAllHolds (nonempty : code ≠ []) (holds : Holds code address s sum) (settings : Settings)
    (visits : List Visit) :
    let b : Boundary ν := alone code baseCost settings
    let total := sum + gathered (Visit.log b address s visits)
    Holds code address (Visit.serveAll b address s visits) total ∧
      Visit.serveAll b address s visits = resum s address total := by
  intro b
  -- The sum goes along: each visit finds the one that the visit before it has left.
  induction visits generalizing s sum with
  | nil => exact ⟨holds, (resumSame holds).symm⟩
  | cons v rest ih =>
    obtain ⟨first, changed⟩ := servedHolds holds (serveServed nonempty holds settings v)
    obtain ⟨after, all⟩ := ih first
    have again (later : Nat) : resum (v.serve b address s).2 address later = resum s address later := by
      rw [changed, resumAgain]
    simp only [Visit.log]
    rw [gatheredCons, ← Nat.add_assoc]
    exact ⟨after, all.trans (again _)⟩

theorem endedDeployed {opening : Approach} {a : Activation} (entered : a.entry = .constructor)
    (packed : a.args = opening.args.pack) {result : Result} {after : Overlay}
    (ended : Ended baseCost (Host.register (opening.root address s) code) a (result, after)) :
    (∃ failure, result = .error failure) ∨
      ∃ raw, opening.args.head? = some (some raw) ∧ raw.length = 8 ∧
        after.storeAfter result = resum { s with code := s.code.insert address code } address (Bytes.readLe raw) := by
  cases ended with
  | starved charges rest first short => exact .inl ⟨_, rfl⟩
  | refused fault sums => exact .inl ⟨_, rfl⟩
  | stored total sums borne =>
    cases sums with
    | added operand total read named fits => cases entered.symm.trans named
    | started operand read named =>
      obtain ⟨raw, first, whole, value⟩ := operandGiven packed read
      refine .inr ⟨raw, first, whole, ?_⟩
      rw [keepStored rfl, ← value]
      change resum (s.absorb (Changes.empty.setCode address code)) address _ = _
      rw [s.absorbSetCode, s.absorbEmpty]

theorem deployHolds (settings : Settings) (opening : Approach)
    (deployed : (opening.deploy (alone code baseCost settings : Boundary ν) address code s).1.isSuccess = true) :
    ∃ raw, opening.args.head? = some (some raw) ∧ raw.length = 8 ∧
      (opening.deploy (alone code baseCost settings : Boundary ν) address code s).2 =
        resum { s with code := s.code.insert address code } address (Bytes.readLe raw) := by
  let b : Boundary ν := alone code baseCost settings
  let root := opening.root address s
  let d : Deployment := ⟨code, opening.args.pack, [], Amount.zero, opening.gasLimit⟩
  let run := b.deploy root address code opening.args opening.gasLimit
  have opened : opening.deploy b address code s = (run.1, run.2.1.storeAfter run.1.result) := rfl
  rw [opened] at deployed ⊢
  cases found : Host.codeHash? root address with
  | some hash =>
    have declined : run = (Outcome.ofRejection address d.attempt .alreadyDeployed, root, []) := by
      simp only [run, Boundary.deploy, found]
      rfl
    rw [declined] at deployed
    cases deployed
  | none =>
    have runs : run = b.run (Host.register root code) d.attempt (d.activation address settings.debug) := by
      simp only [run, Boundary.deploy, found]
      rfl
    have ended : Ended baseCost (Host.register root code) (d.activation address settings.debug)
        (run.1.result, run.2.1) := by
      rw [runs]
      exact runEnds (ν := ν) baseCost settings (Host.register root code) d.attempt _
    rcases endedDeployed rfl rfl ended with ⟨failure, failed⟩ | kept
    · rw [Outcome.isSuccess, failed] at deployed
      cases deployed
    · exact kept

/-- However often it is visited, the contract has the operand it was deployed with and those of all visits that succeeded,
as a sum that does not wrap. A visit succeeds exactly where it is to add an operand of eight bytes that fits and its gas
is enough; it gets the new sum back. A visit that fails changes nothing. -/
theorem keepsExactSum (nonempty : code ≠ []) (baseCost : Gas) (settings : Settings) (before : Store) (opening : Approach)
    (deployed : (opening.deploy (alone code baseCost settings : Boundary ν) address code before).1.isSuccess = true) :
    let b : Boundary ν := alone code baseCost settings
    let start := (opening.deploy b address code before).2
    ∃ raw, opening.args.head? = some (some raw) ∧ raw.length = 8 ∧
      ∀ visits : List Visit,
        let now := Visit.serveAll b address start visits
        let sum := Bytes.readLe raw + gathered (Visit.log b address start visits)
        sum < UInt64.size ∧ now.storage[(⟨address, key⟩ : Cell)]? = some (Bytes.le 8 sum) ∧
          now = resum { before with code := before.code.insert address code } address sum ∧
          ∀ v : Visit, Served baseCost address now sum v ((v.serve b address now).1.result, (v.serve b address now).2) := by
  intro b start
  obtain ⟨raw, first, whole, left⟩ := deployHolds settings opening deployed
  have holds : Holds code address start (Bytes.readLe raw) := by
    change Holds code address (opening.deploy (alone code baseCost settings : Boundary ν) address code before).2 _
    rw [left]
    exact resumHolds Std.ExtTreeMap.getElem?_insert_self (wholeBounded whole)
  have again (later : Nat) : resum start address later =
      resum { before with code := before.code.insert address code } address later := by
    change resum (opening.deploy (alone code baseCost settings : Boundary ν) address code before).2 address later = _
    rw [left, resumAgain]
  refine ⟨raw, first, whole, fun visits => ?_⟩
  obtain ⟨after, all⟩ := serveAllHolds nonempty holds settings visits
  refine ⟨after.fits, after.stored, ?_, serveServed nonempty after settings⟩
  rw [all]
  exact again _

end

/-! A contract opened with one, and visits that add ten, name no operand, name no known method, and lack the gas. -/

def tallyCode : Bytes := [0x00, 0x61, 0x73, 0x6d]

def approach (args : Arguments) (gasLimit : Gas) : Approach :=
  ⟨Settings.standard, ⟨FixedBytes.zero, FixedBytes.zero, FixedBytes.zero, Amount.zero⟩, args, gasLimit⟩

def fourVisits : List Visit :=
  [⟨approach [some (Bytes.le 8 10)] 2000, "compute"⟩, ⟨approach [none] 0, "compute"⟩,
    ⟨approach [some (Bytes.le 8 10)] 0, "reset"⟩, ⟨approach [some (Bytes.le 8 10)] 1000, "compute"⟩]

theorem fourVisitsGather {s : Store} (holds : Holds tallyCode FixedBytes.zero s 1) :
    gathered (Visit.log (alone tallyCode 1000 Settings.standard : Boundary Unit) FixedBytes.zero s fourVisits) = 10 := by
  have nonempty : tallyCode ≠ [] := by decide
  have bound : (approach [some (Bytes.le 8 10)] 2000).args.Addressable := by
    intro value member
    cases Option.some.inj (List.mem_singleton.mp member)
    decide
  have accepted : Accepted 1000 1 ⟨approach [some (Bytes.le 8 10)] 2000, "compute"⟩ (Bytes.le 8 10) :=
    ⟨rfl, rfl, rfl, by decide, .inr (by decide)⟩
  have after : Holds tallyCode FixedBytes.zero (resum s FixedBytes.zero (1 + Bytes.readLe (Bytes.le 8 10))) 11 :=
    resumHolds holds.code (by decide)
  have nothing (raw : Bytes) : ¬ Accepted 1000 11 ⟨approach [none] 0, "compute"⟩ raw := fun accepted => by cases accepted.first
  have unknown (raw : Bytes) : ¬ Accepted 1000 11 ⟨approach [some (Bytes.le 8 10)] 0, "reset"⟩ raw := fun accepted =>
    absurd accepted.computes (by decide)
  have poor (raw : Bytes) : ¬ Accepted 1000 11 ⟨approach [some (Bytes.le 8 10)] 1000, "compute"⟩ raw := fun accepted =>
    absurd accepted.borne (by decide)
  rw [fourVisits, acceptedLog nonempty holds _ _ bound accepted, refusedLog nonempty after _ _ nothing,
    refusedLog nonempty after _ _ unknown, refusedLog nonempty after _ _ poor]
  rfl

theorem elevenAfterFourVisits :
    let b : Boundary Unit := alone tallyCode 1000 Settings.standard
    let opened := (approach [some (Bytes.le 8 1)] 0).deploy b FixedBytes.zero tallyCode {}
    opened.1.isSuccess = true ∧
      (Visit.serveAll b FixedBytes.zero opened.2 fourVisits).storage[(⟨FixedBytes.zero, key⟩ : Cell)]? =
        some (Bytes.le 8 11) := by
  intro b opened
  let a : Activation := Deployment.activation ⟨tallyCode, Arguments.pack [some (Bytes.le 8 1)], [], Amount.zero, 0⟩
    FixedBytes.zero false
  have known : b.interpreter a = (do Program.consumeGas 1000; interpreter a) := Registry.interpreterKnown a interpreter 1000
  have deployed : opened.1.isSuccess = true := by
    have ran : opened.1.result = ((b.interpreter a).exec b.top
        (Frame.ofLimit (Host.register ((approach [] 0).root FixedBytes.zero {}) tallyCode) 0)).result := rfl
    rw [Outcome.isSuccess, ran, known]
    decide +kernel
  obtain ⟨raw, first, -, visited⟩ := keepsExactSum (by decide : tallyCode ≠ []) 1000 Settings.standard {}
    (approach [some (Bytes.le 8 1)] 0) deployed
  have operand : Bytes.le 8 1 = raw := Option.some.inj (Option.some.inj first)
  subst operand
  have holds : Holds tallyCode FixedBytes.zero opened.2 1 := by
    obtain ⟨other, also, -, left⟩ := deployHolds Settings.standard (approach [some (Bytes.le 8 1)] 0) deployed
    have operand : Bytes.le 8 1 = other := Option.some.inj (Option.some.inj also)
    subst operand
    exact left ▸ resumHolds Std.ExtTreeMap.getElem?_insert_self (by decide)
  have stored := (visited fourVisits).2.1
  rw [fourVisitsGather holds] at stored
  exact ⟨deployed, stored⟩

end RunningSum
end CallBoundary
