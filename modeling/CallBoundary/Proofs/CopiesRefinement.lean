import CallBoundary.Proofs.Access
import CallBoundary.Proofs.Copies
/-! A chain of overlays and a chain of whole copies cannot be told apart. The copies that a chain of
overlays stands for are a function of it, and every operation on an environment goes along with that
function; so whatever is done to the innermost environments, in any order and to any depth, the
answers are the same and so is the store in the end. -/
namespace CallBoundary.Overlay

def contentThrough : List Layer → Content → Content
  | [], base => base
  | layer :: rest, base => (contentThrough rest base).under layer.changes

def copyOf (layer : Layer) (rest : List Layer) (store : Store) : Copy where
  context := layer.context
  tariff := layer.tariff
  debug := layer.debug
  content := contentThrough (layer :: rest) (Content.ofStore store)
  events := layer.changes.events

def copiesOf : List Layer → Store → List Copy
  | [], _ => []
  | layer :: rest, store => copyOf layer rest store :: copiesOf rest store

def copies (o : Overlay) : Copies := ⟨copyOf o.own o.below o.store, copiesOf o.below o.store, o.store⟩

theorem contentThroughView (layers : List Layer) (base : Content) :
    (contentThrough layers base).view = viewThrough layers base.view := by
  induction layers with
  | nil => rfl
  | cons layer rest ih => rw [contentThrough, viewThrough, Content.viewUnder, ih]

theorem copiesView (o : Overlay) : o.copies.view = o.view :=
  contentThroughView (o.own :: o.below) (Content.ofStore o.store)

theorem copiesContract (o : Overlay) : o.copies.contract = o.contract := rfl

theorem copiesValueAt (o : Overlay) (contract : Address) (key : Bytes) :
    o.copies.valueAt contract key = o.valueAt contract key := by
  have storage := congrArg (fun v => v.storage ⟨contract, key⟩) o.copiesView
  exact congrArg (Option.filter (· ≠ [])) storage

theorem copiesContentBelow (o : Overlay) :
    o.copies.contentBelow = contentThrough o.below (Content.ofStore o.store) := by
  obtain ⟨own, below, store⟩ := o
  cases below <;> rfl

theorem copiesQuery (o : Overlay) (m : Meter) (q : Query) : o.copies.query m q = o.query m q := by
  have charges : o.copies.queryCharges q = o.queryCharges q := by
    cases q <;> simp only [Copies.queryCharges, queryCharges, copiesValueAt, copiesView, copiesContract] <;> rfl
  have answer : o.copies.answer q = o.answer q := by
    cases q <;> simp only [Copies.answer, Overlay.answer, copiesValueAt, copiesView, copiesContract] <;> rfl
  cases early : queryFault? q with
  | some fault => simp only [Copies.query, query, early]
  | none => simp only [Copies.query, query, early, charges, answer]

/-! Writes. -/

theorem copiesWrite (o : Overlay) (f : Changes → Changes) (g : Content → Content)
    (content : ∀ base : Content, base.under (f o.own.changes) = g (base.under o.own.changes))
    (events : (f o.own.changes).events = o.own.changes.events) :
    (o.write f).copies = o.copies.write g := by
  simp only [copies, write, copyOf, contentThrough, Copies.write, content, events]

theorem copiesSetStorage (o : Overlay) (cell : Cell) (value : Option Bytes) :
    (o.write fun c => c.setStorage cell value).copies = o.copies.write fun content => content.setStorage cell value :=
  o.copiesWrite _ _ (fun base => base.underSetStorage _ cell value) rfl

theorem copiesSetBalance (o : Overlay) (address : Address) (amount : Amount) :
    (o.write fun c => c.setBalance address amount).copies =
      o.copies.write fun content => content.setBalance address amount :=
  o.copiesWrite _ _ (fun base => base.underSetBalance _ address amount) rfl

theorem copiesSetCode (o : Overlay) (address : Address) (code : Bytes) :
    (o.write fun c => c.setCode address code).copies = o.copies.write fun content => content.setCode address code :=
  o.copiesWrite _ _ (fun base => base.underSetCode _ address code) rfl

theorem copiesDebit (o : Overlay) (address : Address) (amount : Amount) :
    o.copies.debit address amount = (o.debit address amount).map copies := by
  simp only [Copies.debit, debit, copiesView]
  cases (o.view.balance address).sub? amount with
  | none => rfl
  | some rest => exact congrArg Except.ok (o.copiesSetBalance address rest).symm

theorem copiesCredit (o : Overlay) (address : Address) (amount : Amount) :
    o.copies.credit address amount = (o.credit address amount).map copies := by
  simp only [Copies.credit, credit, copiesView]
  cases (o.view.balance address).add? amount with
  | none => rfl
  | some total => exact congrArg Except.ok (o.copiesSetBalance address total).symm

theorem copiesSettle (o : Overlay) (attempt : Except Fault Overlay) :
    o.copies.settle (attempt.map copies) = ((o.settle attempt).1, (o.settle attempt).2.copies) := by
  cases attempt <;> rfl

theorem copiesTransfer (o : Overlay) (payer payee : Address) (amount : Amount) :
    o.copies.transfer payer payee amount =
      ((o.transfer payer payee amount).1, (o.transfer payer payee amount).2.copies) := by
  simp only [Copies.transfer, transfer, copiesDebit]
  cases o.debit payer amount with
  | error fault => rfl
  | ok debited =>
    simp only [Except.map, copiesCredit]
    exact debited.copiesSettle (debited.credit payee amount)

theorem copiesApply (o : Overlay) (u : Update) :
    o.copies.apply u = ((o.apply u).1, (o.apply u).2.copies) := by
  cases u with
  | setStorage key value => simp only [Copies.apply, apply, copiesSetStorage, copiesContract]
  | removeStorage key => simp only [Copies.apply, apply, copiesSetStorage, copiesContract]
  | send recipient amount => exact o.copiesTransfer o.contract recipient amount
  | subBalance amount =>
    simp only [Copies.apply, apply, copiesDebit, copiesContract]
    exact o.copiesSettle (o.debit o.contract amount)
  | addBalance address amount =>
    simp only [Copies.apply, apply, copiesCredit]
    exact o.copiesSettle (o.credit address amount)
  | emit name args => rfl

theorem copiesUpdate (o : Overlay) (m : Meter) (u : Update) :
    o.copies.update m u = ((o.update m u).1, (o.update m u).2.1, (o.update m u).2.2.copies) := by
  have charge : o.copies.updateCharge u = o.updateCharge u := by cases u <;> rfl
  simp only [Copies.update, update, charge, copiesApply]
  cases updateFault? u with
  | some fault => rfl
  | none =>
    simp only
    split <;> rfl

/-! Environments. -/

theorem copiesNest (o : Overlay) (contract : Address) (amount : Amount) :
    (o.nest (o.childContext contract amount) o.own.tariff o.own.debug).copies = o.copies.nest contract amount := by
  simp only [copies, nest, copyOf, copiesOf, contentThrough, Content.underEmpty]
  rfl

theorem copiesDerive (o : Overlay) (contract : Address) (amount : Amount) (deployment : Bool) :
    o.copies.derive contract amount deployment =
      ((o.derive contract amount deployment).1, (o.derive contract amount deployment).2.copies) := by
  simp only [Copies.derive, derive, copiesView, ← copiesNest, copiesTransfer, copiesContract]
  split
  · rfl
  · split
    · rfl
    · cases (o.nest (o.childContext contract amount) o.own.tariff o.own.debug).transfer o.contract contract amount with
      | mk answer paid => cases answer <;> rfl

theorem copiesRelease (o : Overlay) : o.copies.release = o.release.copies := by
  obtain ⟨own, below, store⟩ := o
  cases below <;> rfl

theorem copiesClear (o : Overlay) : o.copies.clear = o.clear.copies := by
  unfold Copies.clear
  rw [copiesContentBelow]
  simp only [copies, clear, write, copyOf, contentThrough, Content.underEmpty]
  rfl

theorem copiesCommit (o : Overlay) : o.copies.commit = o.commit.copies := by
  obtain ⟨own, below, store⟩ := o
  cases below with
  | nil =>
    simp only [commit, write, copies, copyOf, contentThrough, Content.underEmpty, Content.ofStoreAbsorb]
    rfl
  | cons parent rest =>
    simp only [commit, write, copies, copyOf, copiesOf, contentThrough, Content.underEmpty, Content.underMerge]
    rfl

theorem copiesMapping : Host.Mapping copies where
  query := copiesQuery
  update := copiesUpdate
  derive := copiesDerive
  release := copiesRelease
  code o address := by simp only [Host.code?, copiesView]
  codeHash o address := by simp only [Host.codeHash?, copiesView]
  register o code := (o.copiesSetCode o.contract code).symm
  commit o := congrArg (Prod.mk _) o.copiesCommit
  clear := copiesClear
  isDebug _ := rfl

theorem copiesRoot (settings : Settings) (context : Context) (store : Store) :
    (root settings context store).copies = Copies.root settings context store := by
  simp only [root, copies, layerOf, copyOf, contentThrough, Content.underEmpty]
  rfl

/-- Over any store and under any settings, a chain of overlays answers any run of accesses as the
chain of whole copies does, and leaves the same meter and the same store. -/
theorem overlaysAnswerAsCopies (settings : Settings) (context : Context) (store : Store) (m : Meter)
    (accesses : List Access) :
    let layered := Access.run (root settings context store) m accesses
    let copied := Access.run (Copies.root settings context store) m accesses
    layered.1 = copied.1 ∧ layered.2.1 = copied.2.1 ∧ layered.2.2.store = copied.2.2.store := by
  intro layered copied
  have same : copied = (layered.1, layered.2.1, layered.2.2.copies) := by
    rw [← copiesMapping.run, copiesRoot]
  rw [same]
  exact ⟨rfl, rfl, rfl⟩

end CallBoundary.Overlay
