import CallBoundary.Proofs.CodeEntries
import CallBoundary.Proofs.Records
/-! Authority. A run changes only what belongs to the contracts it ran: their cells of storage, under keys that are not
too long, and their code; it lowers only their balances, and the events it leaves are theirs, as are those that stand
only for a while in frames that are discarded. Whatever frames inside have written reaches the root by commits, which
add nothing of their own. -/
namespace CallBoundary

variable {ν : Type}

namespace Trace

mutual
def Item.contracts : Item ν → List Address
  | .ran _ activation items _ _ _ => activation.contract :: contracts items
  | _ => []

def contracts : Trace ν → List Address
  | [] => []
  | item :: rest => item.contracts ++ contracts rest
end

theorem contractsAppend (s t : Trace ν) : contracts (s ++ t) = contracts s ++ contracts t := by
  induction s with
  | nil => rfl
  | cons item rest ih => simp only [List.cons_append, contracts, ih, List.append_assoc]

theorem contractsPerform (level : Level ν Overlay) (op : Operation) (next : op.Answer → Program ν (Option Bytes))
    (f : Frame Overlay) :
    ((Program.perform op next).exec level f).trace.contracts = (f.step level op).2.2.contracts ++
      ((next (f.step level op).1).exec level (f.step level op).2.1).trace.contracts :=
  contractsAppend _ _

end Trace

namespace Overlay

structure ChangedBy (acting : Address → Prop) (before after : Overlay) : Prop where
  storage : ∀ cell : Cell, after.view.storage cell = before.view.storage cell ∨
    acting cell.contract ∧ cell.key.length ≤ maxKeyLength
  code : ∀ address, after.view.code address = before.view.code address ∨ acting address
  balance : ∀ address, (before.view.balance address).value ≤ (after.view.balance address).value ∨ acting address
  events : ∃ emitted, after.events = before.events ++ emitted ∧ ∀ event ∈ emitted, acting event.contract

variable {acting : Address → Prop} {o before middle after : Overlay}

theorem addedNoEvents (same : after.events = before.events) :
    ∃ emitted, after.events = before.events ++ emitted ∧ ∀ event ∈ emitted, acting event.contract :=
  ⟨[], by rw [same, List.append_nil], fun _ absent => by cases absent⟩

theorem changedNothing (view : after.view = before.view) (events : after.events = before.events) :
    before.ChangedBy acting after where
  storage cell := .inl (by rw [view])
  code address := .inl (by rw [view])
  balance address := .inl (by rw [view])
  events := addedNoEvents events

theorem changedRefl (o : Overlay) : o.ChangedBy acting o := changedNothing rfl rfl

theorem changedTrans (first : before.ChangedBy acting middle) (second : middle.ChangedBy acting after) :
    before.ChangedBy acting after where
  storage cell := by
    rcases first.storage cell with same | own
    · rw [← same]
      exact second.storage cell
    · exact .inr own
  code address := by
    rcases first.code address with same | own
    · rw [← same]
      exact second.code address
    · exact .inr own
  balance address := by
    rcases first.balance address with kept | own
    · exact (second.balance address).imp_left (Nat.le_trans kept)
    · exact .inr own
  events := by
    obtain ⟨earlier, first, own⟩ := first.events
    obtain ⟨later, second, also⟩ := second.events
    refine ⟨earlier ++ later, by rw [second, first, List.append_assoc], ?_⟩
    intro event member
    exact (List.mem_append.mp member).elim (own event) (also event)

/-! Single writes. -/

theorem setStorageView (o : Overlay) (cell : Cell) (value : Option Bytes) :
    (o.write fun c => c.setStorage cell value).view =
      { o.view with storage := fun other => if other = cell then value else o.view.storage other } := by
  apply View.ext
  · funext other
    simp only [view, viewThrough, Changes.onto, write, Changes.setStorage, Std.ExtTreeMap.getElem?_insert,
      Std.LawfulEqCmp.compare_eq_iff_eq]
    by_cases same : cell = other
    · rw [if_pos same, if_pos same.symm]
      rfl
    · rw [if_neg same, if_neg (Ne.symm same)]
  · rfl
  · rfl

theorem setStorageChanged (cell : Cell) (own : acting cell.contract) (short : cell.key.length ≤ maxKeyLength)
    (value : Option Bytes) : o.ChangedBy acting (o.write fun c => c.setStorage cell value) where
  storage other := by
    rw [setStorageView]
    by_cases same : other = cell
    · subst same
      exact .inr ⟨own, short⟩
    · exact .inl (if_neg same)
  code address := .inl (by rw [setStorageView])
  balance address := .inl (by rw [setStorageView])
  events := addedNoEvents (o.writeEvents (fun c => c.setStorage cell value) fun _ => rfl)

theorem setBalanceChanged {address : Address} {amount : Amount}
    (allowed : (o.view.balance address).value ≤ amount.value ∨ acting address) :
    o.ChangedBy acting (o.setBalance address amount) where
  storage cell := .inl (by rw [setBalanceView])
  code other := .inl (by rw [setBalanceView])
  balance other := by
    rw [setBalanceView]
    by_cases same : other = address
    · subst same
      simpa only [if_true] using allowed
    · simp only [if_neg same]
      exact .inl (Nat.le_refl _)
  events := addedNoEvents (o.writeEvents (fun c => c.setBalance address amount) fun _ => rfl)

theorem registerChanged {contract : Address} (own : acting contract) (code : Bytes) :
    o.ChangedBy acting (o.write fun c => c.setCode contract code) where
  storage cell := .inl rfl
  code address := by
    rw [registerCode]
    by_cases same : address = contract
    · subst same
      exact .inr own
    · exact .inl (if_neg same)
  balance address := .inl (Nat.le_refl _)
  events := addedNoEvents (o.writeEvents (fun c => c.setCode contract code) fun _ => rfl)

theorem emitChanged (event : Event) (own : acting event.contract) :
    o.ChangedBy acting (o.write fun c => c.emit event) where
  storage cell := .inl rfl
  code address := .inl rfl
  balance address := .inl (Nat.le_refl _)
  events := by
    refine ⟨[event], o.emitEvents event, ?_⟩
    intro other member
    cases List.mem_singleton.mp member
    exact own

/-! The operations of a frame, and opening environments. -/

theorem transferChanged {payer : Address} (own : acting payer) (payee : Address) (amount : Amount) :
    o.ChangedBy acting (o.transfer payer payee amount).2 := by
  have debited : o.ChangedBy acting (o.paidOut payer amount) := setBalanceChanged (.inr own)
  by_cases covered : amount.value ≤ (o.view.balance payer).value
  · by_cases fits : o.held payer payee amount < Amount.limit
    · rw [transferFits covered fits]
      exact changedTrans debited (setBalanceChanged (.inl (Nat.le_add_right _ _)))
    · rw [transferOverflows covered fits]
      exact debited
  · rw [transferUncovered covered]
    exact changedRefl o

theorem debitChanged {address : Address} (own : acting address) (amount : Amount) :
    o.ChangedBy acting (o.settle (o.debit address amount)).2 := by
  by_cases covered : amount.value ≤ (o.view.balance address).value
  · rw [debitCovered covered]
    exact setBalanceChanged (.inr own)
  · simp only [debit, Amount.subUncovered covered]
    exact changedRefl o

theorem creditChanged (address : Address) (amount : Amount) :
    o.ChangedBy acting (o.settle (o.credit address amount)).2 := by
  by_cases fits : (o.view.balance address).value + amount.value < Amount.limit
  · simp only [credit, Amount.addFits fits]
    exact setBalanceChanged (.inl (Nat.le_add_right _ _))
  · simp only [credit, Amount.addOverflows fits]
    exact changedRefl o

theorem keyFits {key : Bytes} (accepted : keyFault? key = none) : key.length ≤ maxKeyLength := by
  unfold keyFault? at accepted
  split at accepted
  · cases accepted
  · rename_i short
    exact Nat.not_lt.mp short

theorem applyChanged (own : acting o.contract) {u : Update} (accepted : updateFault? u = none) :
    o.ChangedBy acting (o.apply u).2 := by
  cases u with
  | setStorage key value => exact setStorageChanged ⟨o.contract, key⟩ own (keyFits accepted) (some value)
  | removeStorage key => exact setStorageChanged ⟨o.contract, key⟩ own (keyFits accepted) none
  | send recipient amount => exact transferChanged own recipient amount
  | subBalance amount => exact debitChanged own amount
  | addBalance address amount => exact creditChanged address amount
  | emit name args => exact emitChanged ⟨o.contract, name, args⟩ own

theorem updateChanged (own : acting o.contract) (m : Meter) (u : Update) : o.ChangedBy acting (o.update m u).2.2 := by
  simp only [update]
  cases accepted : updateFault? u with
  | some fault => exact changedRefl o
  | none =>
    cases (m.consume (o.updateCharge u)).exhausted with
    | true => exact changedRefl o
    | false => exact applyChanged own accepted

theorem openedChanged {activation : Activation} {amount : Amount} {child : Overlay}
    (opened : activation.opened? o amount = some child) (own : acting o.contract) (inside : acting activation.contract) :
    child.contract = activation.contract ∧ o.ChangedBy acting child := by
  obtain ⟨fresh, derived, rfl⟩ := activation.openedFrom opened
  have owned : fresh.contract = activation.contract := (deriveCode derived).1
  have paid : o.ChangedBy acting fresh := by
    have nested : o.ChangedBy acting (o.nest (o.childContext activation.contract amount) o.own.tariff o.own.debug) :=
      changedNothing (o.nestView _ _ _) (o.nestEvents _ _ _)
    rcases (deriveOpens derived).2 with rfl | transferred
    · exact nested
    · have moved := changedTrans nested (transferChanged own activation.contract amount)
      rwa [transferred] at moved
  split
  · refine ⟨owned, changedTrans paid ?_⟩
    rw [← owned] at inside
    exact registerChanged inside activation.code
  · exact ⟨owned, paid⟩

end Overlay

open Trace Overlay

namespace Frame

structure Authorized (f : Frame Overlay) (t : Trace ν) (after : Frame Overlay) : Prop where
  contract : after.host.contract = f.host.contract
  changed : ∀ acting : Address → Prop, acting f.host.contract → (∀ address ∈ t.contracts, acting address) →
    f.host.ChangedBy acting after.host

theorem authorizedThen {f middle after : Frame Overlay} {s t : Trace ν} (first : f.Authorized s middle)
    (second : middle.Authorized t after) : f.Authorized (s ++ t) after := by
  refine ⟨second.contract.trans first.contract, ?_⟩
  intro acting own others
  rw [contractsAppend] at others
  have earlier := first.changed acting own fun address ran => others address (List.mem_append_left _ ran)
  have later := second.changed acting (first.contract ▸ own) fun address ran => others address (List.mem_append_right _ ran)
  exact changedTrans earlier later

theorem authorizedAfter {f after : Frame Overlay} {t : Trace ν} (item : Item ν) (later : f.Authorized t after) :
    f.Authorized (item :: t) after :=
  ⟨later.contract, fun acting own others => later.changed acting own fun address ran =>
    others address (List.mem_append_right _ ran)⟩

theorem authorizedSame {f after : Frame Overlay} (t : Trace ν) (same : after.host = f.host) : f.Authorized t after :=
  ⟨congrArg Overlay.contract same, fun _ _ _ => changedNothing (congrArg Overlay.view same) (congrArg Overlay.events same)⟩

theorem performAuthorized (b : Boundary ν) (room depth : Nat)
    (below : (b.level room depth : Level ν Overlay).Traces Authorized) (f : Frame Overlay) (i : Invocation) :
    f.Authorized (i.perform (b.level room depth) f).2.2 (i.perform (b.level room depth) f).2.1 := by
  rcases Invocation.performFolds b room depth f i with
    ⟨-, same⟩ | ⟨activation, callee, context, -, runs, -, nested, folded, ran⟩
  · exact authorizedSame _ same
  · obtain ⟨child, opened, inside⟩ := Level.calleeTraced below runs
    rw [ran]
    refine ⟨by rw [folded]; rfl, ?_⟩
    intro acting own others
    simp only [contracts, Item.contracts, List.append_nil, List.mem_cons, forall_eq_or_imp] at others
    obtain ⟨inner, deeper⟩ := others
    obtain ⟨owned, started⟩ := openedChanged opened own inner
    have running := inside.changed acting (owned ▸ inner) deeper
    -- What the caller sees in the end is what the callee saw.
    have closed : callee.host.ChangedBy acting (f.host.absorb callee.host.own.changes) :=
      changedNothing (settledNested nested).view (foldedEvents nested)
    rw [folded]
    exact changedTrans started (changedTrans running closed)

theorem stepAuthorized (b : Boundary ν) (room depth : Nat)
    (below : (b.level room depth : Level ν Overlay).Traces Authorized) (f : Frame Overlay) (op : Operation) :
    f.Authorized (f.step (b.level room depth) op).2.2 (f.step (b.level room depth) op).2.1 := by
  cases op with
  | query q => exact authorizedSame [] (f.queryHost q)
  | update u =>
    simp only [step, update]
    split
    · exact authorizedSame [] rfl
    · refine ⟨?_, ?_⟩
      · obtain ⟨changes, written⟩ := f.host.updateWritesOnly f.meter u
        have own : (f.host.update f.meter u).2.2.contract = f.host.contract := by
          rw [written]
          rfl
        rw [recordIfHost]
        exact own
      · intro acting own others
        rw [recordIfHost]
        exact updateChanged own f.meter u
  | ask p => exact authorizedSame [] rfl
  | consumeGas gas => exact authorizedSame [] rfl
  | setGasLimit limit => exact authorizedSame [] rfl
  | commit =>
    simp only [step, commit]
    split
    · exact authorizedSame [] rfl
    · have own : f.host.commit.clear.contract = f.host.contract := by
        unfold Overlay.commit
        cases f.host.below <;> rfl
      exact ⟨own, fun _ _ _ => changedNothing f.host.commitView f.host.commitEvents⟩
  | call c => exact performAuthorized b room depth below f (.call c)
  | deploy d => exact performAuthorized b room depth below f (.deploy d)

end Frame

theorem Boundary.tracingAuthorized (b : Boundary ν) : b.Tracing (Frame.Authorized (ν := ν)) where
  stays _ := Frame.authorizedSame [] rfl
  notes n later := Frame.authorizedAfter (.noted n) later
  performs room depth below _ _ _ op later :=
    Frame.authorizedThen (Frame.stepAuthorized b room depth below _ op) (Frame.authorizedAfter _ later)

/-! Moments. Whatever a frame that runs has come to see is owed to those who act in the run, also where the frame is
discarded later. -/

-- The frame of a moment runs as one of those who act, and so do all frames that are still to run inside.
structure Moment.Acting (b : Boundary ν) (acting : Address → Prop) (m : Moment ν Overlay) : Prop where
  own : acting m.frame.host.contract
  others : ∀ address ∈ (m.rest.exec (b.level m.room m.depth) m.frame).trace.contracts, acting address

namespace Boundary

variable {acting : Address → Prop}

theorem movesActing (b : Boundary ν) {m next : Moment ν Overlay} (moves : b.Moves m next) (acts : m.Acting b acting) :
    next.Acting b acting ∧ m.frame.host.ChangedBy acting next.frame.host := by
  cases moves with
  | noted n next f => exact ⟨⟨acts.own, acts.others⟩, changedRefl f.host⟩
  | @performed room depth op next f =>
    have stepped := Frame.stepAuthorized b room depth (b.tracingAuthorized.below room depth) f op
    have others := acts.others
    rw [contractsPerform, List.forall_mem_append] at others
    obtain ⟨inside, later⟩ := others
    refine ⟨⟨?_, later⟩, stepped.changed acting acts.own inside⟩
    rw [stepped.contract]
    exact acts.own
  | @entered room depth i next f activation child admitted opened =>
    have others := acts.others
    rw [contractsPerform, List.forall_mem_append, Frame.stepInvocation, b.enteredTrace admitted opened] at others
    obtain ⟨inside, -⟩ := others
    simp only [contracts, Item.contracts, List.append_nil, List.mem_cons, forall_eq_or_imp] at inside
    obtain ⟨inner, deeper⟩ := inside
    obtain ⟨owned, changed⟩ := openedChanged opened acts.own inner
    exact ⟨⟨owned ▸ inner, deeper⟩, changed⟩

theorem laterActing (b : Boundary ν) {m later : Moment ν Overlay} (reached : b.Later m later) (acts : m.Acting b acting) :
    later.Acting b acting ∧ m.frame.host.ChangedBy acting later.frame.host := by
  induction reached with
  | refl => exact ⟨acts, changedRefl m.frame.host⟩
  | tail _ moves ih =>
    obtain ⟨further, changed⟩ := b.movesActing moves ih.1
    exact ⟨further, changedTrans ih.2 changed⟩

end Boundary

namespace Operation

def writtenKey? : Operation → Option Bytes
  | .update (.setStorage key _) | .update (.removeStorage key) => some key
  | _ => none

def KeyFits (op : Operation) (answer : op.Answer) : Prop :=
  ∀ key, op.writtenKey? = some key → op.fault? answer = none → key.length ≤ maxKeyLength

end Operation

namespace Frame

theorem updateDone {f : Frame Overlay} {u : Update} {answer : Metered Unit} (done : (f.update u).1 = .ok answer) :
    updateFault? u = none ∧ (f.update u).2.host = (f.host.apply u).2 := by
  cases exhausted : f.meter.exhausted with
  | true =>
    rw [updateExhausted exhausted] at done
    cases done
  | false =>
    rw [updateSpared exhausted] at done ⊢
    rw [recordIfHost]
    simp only [Host.update, Overlay.update] at done ⊢
    cases accepted : updateFault? u with
    | some fault =>
      rw [accepted] at done
      cases done
    | none =>
      cases charged : (f.meter.consume (f.host.updateCharge u)).exhausted with
      | true =>
        simp only [accepted, charged, if_true] at done
        cases done
      | false => exact ⟨rfl, rfl⟩

theorem eventEmits (level : Level ν Overlay) (f : Frame Overlay) (name : String) (packed : Bytes) {answer : Metered Unit}
    (done : (f.step level (.event name packed)).1 = .ok answer) :
    (f.step level (.event name packed)).2.1.host.events =
      f.host.events ++ [⟨f.host.contract, name, Arguments.unpack packed⟩] := by
  have applied : (f.step level (.event name packed)).2.1.host =
      (f.host.apply (.emit name (Arguments.unpack packed))).2 :=
    (updateDone (u := .emit name (Arguments.unpack packed)) done).2
  rw [applied]
  exact f.host.emitEvents _

theorem updateKeyFits (f : Frame Overlay) (u : Update) : Operation.KeyFits (.update u) (f.update u).1 := by
  intro key written done
  have accepted : updateFault? u = none := by
    cases answered : (f.update u).1 with
    | ok answer => exact (updateDone answered).1
    | error fault =>
      rw [answered] at done
      cases done
  cases u with
  | setStorage other value =>
    cases written
    exact keyFits accepted
  | removeStorage other =>
    cases written
    exact keyFits accepted
  | send _ _ | subBalance _ | addBalance _ _ | emit _ _ => cases written

theorem stepKeyFits (level : Level ν Overlay) (f : Frame Overlay) (op : Operation) :
    op.KeyFits (f.step level op).1 := by
  cases op with
  | update u => exact f.updateKeyFits u
  | query _ | ask _ | consumeGas _ | setGasLimit _ | commit | call _ | deploy _ =>
    intro key written
    cases written

end Frame

namespace Launch

theorem preparedContract (o : Overlay) (l : Launch) : (l.prepared o).contract = o.contract := by
  cases l <;> rfl

theorem preparedChanged {o : Overlay} {l : Launch} (own : o.contract = l.contract) {acting : Address → Prop}
    (allowed : acting l.contract) : o.ChangedBy acting (l.prepared o) := by
  cases l with
  | execute contract method args gasLimit => exact changedRefl o
  | deploy contract code args gasLimit =>
    rw [← own] at allowed
    exact registerChanged allowed code

theorem runChanged (b : Boundary ν) {o : Overlay} (l : Launch) (own : o.contract = l.contract) :
    o.ChangedBy (· ∈ (l.run b o).2.2.contracts) (l.run b o).2.1 := by
  have ended := l.runEnded b o
  generalize l.run b o = result at ended
  cases ended with
  | declined failure absent => exact changedRefl o
  | ran activation admitted =>
    obtain ⟨contract, -, -, -⟩ := admittedGiven admitted
    have inside := b.tracingAuthorized.execTop (b.interpreter activation) (Frame.ofLimit (l.prepared o) activation.gasLimit)
    have owned : (l.prepared o).contract = l.contract := (l.preparedContract o).trans own
    simp only [Boundary.run, contracts, Item.contracts, List.append_nil, List.mem_cons, contract]
    exact changedTrans (preparedChanged own (.inl rfl)) (inside.changed _ (.inl owned) fun address ran => .inr ran)

theorem runKeysFit (b : Boundary ν) (o : Overlay) (l : Launch) (op : Operation) (answer : op.Answer)
    (found : (l.run b o).2.2.Within (.performed op answer)) : op.KeyFits answer := by
  have ended := l.runEnded b o
  generalize l.run b o = result at ended found
  cases ended with
  | declined failure absent => cases found
  | ran activation admitted =>
    have inside := (b.tracingPerformed Frame.stepKeyFits).execTop (b.interpreter activation)
      (Frame.ofLimit (l.prepared o) activation.gasLimit)
    cases found with
    | later _ found => cases found
    | inside _ found => exact inside op answer found

theorem startActing (b : Boundary ν) {o : Overlay} {l : Launch} (own : o.contract = l.contract) {start : Moment ν Overlay}
    (starts : l.start? b o = some start) :
    start.Acting b (· ∈ (l.run b o).2.2.contracts) ∧ o.ChangedBy (· ∈ (l.run b o).2.2.contracts) start.frame.host := by
  obtain ⟨activation, admitted, rfl⟩ := Option.map_eq_some_iff.mp starts
  obtain ⟨contract, -, -, -⟩ := admittedGiven admitted
  have owned : (l.prepared o).contract = l.contract := (l.preparedContract o).trans own
  simp only [admittedRuns admitted, Boundary.run, contracts, Item.contracts, List.append_nil, List.mem_cons, contract]
  exact ⟨⟨.inl owned, fun address ran => .inr ran⟩, preparedChanged own (.inl rfl)⟩

/-- Of an address that no frame ran as, a launch in the environment of its contract leaves all cells and the code as they
were, leaves no less balance, and adds no event. So it is at every moment of every frame that runs, whatever is discarded
later: no event stands in its environment that is not owed to a contract that ran. No value is written or removed under
a key longer than 32 bytes, at any depth and with whatever success in the end, and none comes to be seen under one. -/
theorem actsWithinAuthority (b : Boundary ν) (o : Overlay) (l : Launch) (own : o.contract = l.contract) :
    let after := (l.run b o).2.1
    let trace := (l.run b o).2.2
    (∀ address, address ∉ trace.contracts →
      (∀ key, after.view.storage ⟨address, key⟩ = o.view.storage ⟨address, key⟩) ∧
      after.view.code address = o.view.code address ∧
      (o.view.balance address).value ≤ (after.view.balance address).value) ∧
    (∃ emitted, after.events = o.events ++ emitted ∧ ∀ event ∈ emitted, event.contract ∈ trace.contracts) ∧
    (∀ start m : Moment ν Overlay, l.start? b o = some start → b.Later start m →
      ∃ emitted, m.frame.host.events = o.events ++ emitted ∧ ∀ event ∈ emitted, event.contract ∈ trace.contracts) ∧
    (∀ op answer key, trace.Within (.performed op answer) → op.writtenKey? = some key → op.fault? answer = none →
      key.length ≤ 32) ∧
    (∀ cell : Cell, 32 < cell.key.length → after.view.storage cell = o.view.storage cell) := by
  intro after trace
  have changed := l.runChanged b own
  refine ⟨?_, changed.events, ?_, ?_, ?_⟩
  · intro address idle
    refine ⟨?_, ?_, ?_⟩
    · intro key
      exact (changed.storage ⟨address, key⟩).resolve_right fun acted => idle acted.1
    · exact (changed.code address).resolve_right idle
    · exact (changed.balance address).resolve_right idle
  · intro start m starts reached
    obtain ⟨acts, started⟩ := startActing b own starts
    exact (changedTrans started (b.laterActing reached acts).2).events
  · intro op answer key found written done
    exact l.runKeysFit b o op answer found key written done
  · intro cell long
    exact (changed.storage cell).resolve_right fun acted => Nat.not_lt.mpr acted.2 long

def errands : Address := FixedBytes.zero

def helper : Address := FixedBytes.last 20 [1]

def bystander : Address := FixedBytes.last 20 [2]

def errand : Boundary Unit where
  settings := Settings.standard
  interpreter a :=
    match a.entry with
    | .method "run" => do
      let _ ← Program.update (.setStorage [1] [1])
      let _ ← Program.update (.send bystander ⟨6, by decide⟩)
      let _ ← Program.run (.call ⟨helper, "tell", [], Amount.zero, [], 0⟩)
      pure none
    | _ => do
      let _ ← Program.update (.emit "paid" [])
      pure none

def errandRoot : Overlay :=
  Overlay.root Settings.standard ⟨errands, errands, errands, Amount.zero⟩
    { storage := (∅ : Std.ExtTreeMap Cell Bytes).insert ⟨bystander, [1]⟩ [5]
      balances := (∅ : Std.ExtTreeMap Address Amount).insert errands ⟨40, by decide⟩
      code := ((∅ : Std.ExtTreeMap Address Bytes).insert errands [1]).insert helper [1] }

def errandLaunch : Launch := .execute errands "run" [] 0

def errandRun : Outcome × Overlay × Trace Unit := errandLaunch.run errand errandRoot

theorem errandSparesBystander :
    errandRoot.contract = errandLaunch.contract ∧ errandRun.2.2.contracts = [errands, helper] ∧
      errandRun.2.1.events.map Event.contract = [helper] ∧
      (errandRun.2.1.view.balance bystander).value = 6 ∧ errandRun.2.1.view.storage ⟨bystander, [1]⟩ = some [5] := by
  have own : errandRoot.contract = errandLaunch.contract := rfl
  have ran : errandRun.2.2.contracts = [errands, helper] := by decide +kernel
  have idle : bystander ∉ errandRun.2.2.contracts := by
    rw [ran]
    decide
  have spared := (errandLaunch.actsWithinAuthority errand errandRoot own).1 bystander idle
  have before : errandRoot.view.storage ⟨bystander, [1]⟩ = some [5] := by decide +kernel
  exact ⟨own, ran, by decide +kernel, by decide +kernel, (spared.1 [1]).trans before⟩

end Launch
end CallBoundary
