import CallBoundary.State
/-! What is seen through writes, and all that contracts can change, written out in full. Through two sets of writes,
the later over the earlier, it is what is seen through both folded into one, and every single write is the folding in
of a set that holds it alone. Laying writes over a content gives another one, which shows what the writes show over
the first. A single write changes the result as it would a content. -/
namespace CallBoundary

namespace Changes

variable (c later : Changes) (v : View)

theorem mergeOnto : (c.merge later).onto v = later.onto (c.onto v) := by
  apply View.ext
  · funext cell
    simp only [onto, merge, Std.ExtTreeMap.getElem?_union]
    cases later.storage[cell]? <;> simp
  · funext address
    simp only [onto, merge, Std.ExtTreeMap.getElem?_union]
    cases later.balances[address]? <;> simp
  · funext address
    simp only [onto, merge, Std.ExtTreeMap.getElem?_union, Option.or_assoc]

theorem emptyOnto : empty.onto v = v := by
  apply View.ext
  · funext cell
    simp [onto, empty]
  · funext address
    simp [onto, empty]
  · funext address
    simp [onto, empty]

/-! Sets of writes put together are maps put together. -/

section

variable {α β : Type} {cmp : α → α → Ordering} [Std.TransCmp cmp] [Std.LawfulEqCmp cmp] (a b d : Std.ExtTreeMap α β cmp)

theorem unionAssoc : a ∪ b ∪ d = a ∪ (b ∪ d) := by
  apply Std.ExtTreeMap.ext_getElem?
  intro k
  simp only [Std.ExtTreeMap.getElem?_union, Option.or_assoc]

theorem unionEmpty : a ∪ ∅ = a := by
  apply Std.ExtTreeMap.ext_getElem?
  intro k
  simp [Std.ExtTreeMap.getElem?_union]

theorem emptyUnion : ∅ ∪ a = a := by
  apply Std.ExtTreeMap.ext_getElem?
  intro k
  simp [Std.ExtTreeMap.getElem?_union]

theorem unionInsert (k : α) (x : β) : a ∪ (∅ : Std.ExtTreeMap α β cmp).insert k x = a.insert k x := by
  apply Std.ExtTreeMap.ext_getElem?
  intro other
  simp only [Std.ExtTreeMap.getElem?_union, Std.ExtTreeMap.getElem?_insert]
  split <;> simp

end

theorem mergeAssoc (last : Changes) : (c.merge later).merge last = c.merge (later.merge last) := by
  simp only [merge, unionAssoc, List.append_assoc]

theorem mergeEmpty : c.merge empty = c := by
  simp only [merge, empty, unionEmpty, List.append_nil]

theorem emptyMerge : empty.merge c = c := by
  simp only [merge, empty, emptyUnion, List.nil_append]

theorem setStorageMerge (cell : Cell) (value : Option Bytes) :
    c.setStorage cell value = c.merge (empty.setStorage cell value) := by
  simp only [merge, setStorage, empty, unionInsert, unionEmpty, List.append_nil]

theorem setBalanceMerge (address : Address) (amount : Amount) :
    c.setBalance address amount = c.merge (empty.setBalance address amount) := by
  simp only [merge, setBalance, empty, unionInsert, unionEmpty, List.append_nil]

theorem setCodeMerge (address : Address) (code : Bytes) :
    c.setCode address code = c.merge (empty.setCode address code) := by
  simp only [merge, setCode, empty, unionInsert, unionEmpty, List.append_nil]

theorem emitMerge (event : Event) : c.emit event = c.merge (empty.emit event) := by
  simp only [merge, emit, empty, unionEmpty, List.nil_append]

end Changes

@[ext]
structure Content where
  storage : Std.ExtTreeMap Cell Bytes
  balances : Std.ExtTreeMap Address Amount
  code : Std.ExtTreeMap Address Bytes

namespace Content

def ofStore (s : Store) : Content := ⟨s.storage, s.balances, s.code⟩

def view (c : Content) : View where
  storage cell := c.storage[cell]?
  balance address := c.balances[address]?.getD Amount.zero
  code address := c.code[address]?

def setStorage (c : Content) (cell : Cell) : Option Bytes → Content
  | some value => { c with storage := c.storage.insert cell value }
  | none => { c with storage := c.storage.erase cell }

def setBalance (c : Content) (address : Address) (amount : Amount) : Content :=
  { c with balances := c.balances.insert address amount }

def setCode (c : Content) (address : Address) (code : Bytes) : Content :=
  { c with code := c.code.insert address code }

def under (c : Content) (w : Changes) : Content where
  storage := (c.storage.map (fun _ value => some value) ∪ w.storage).filterMap fun _ value => value
  balances := c.balances ∪ w.balances
  code := c.code ∪ w.code

variable (c : Content) (w later : Changes)

theorem storageUnder (cell : Cell) :
    (c.under w).storage[cell]? = w.storage[cell]?.getD c.storage[cell]? := by
  simp only [under, Std.ExtTreeMap.getElem?_filterMap', Std.ExtTreeMap.getElem?_union,
    Std.ExtTreeMap.getElem?_map]
  cases w.storage[cell]? with
  | some value => rfl
  | none => cases c.storage[cell]? <;> rfl

theorem balancesUnder (address : Address) :
    (c.under w).balances[address]? = w.balances[address]?.or c.balances[address]? :=
  Std.ExtTreeMap.getElem?_union

theorem codeUnder (address : Address) :
    (c.under w).code[address]? = w.code[address]?.or c.code[address]? :=
  Std.ExtTreeMap.getElem?_union

theorem equalOfLookups {a b : Content} (storage : ∀ cell : Cell, a.storage[cell]? = b.storage[cell]?)
    (balances : ∀ address : Address, a.balances[address]? = b.balances[address]?)
    (code : ∀ address : Address, a.code[address]? = b.code[address]?) : a = b :=
  Content.ext (Std.ExtTreeMap.ext_getElem? storage) (Std.ExtTreeMap.ext_getElem? balances)
    (Std.ExtTreeMap.ext_getElem? code)

theorem viewUnder : (c.under w).view = w.onto c.view := by
  apply View.ext
  · funext cell
    exact c.storageUnder w cell
  · funext address
    simp only [view, Changes.onto, balancesUnder]
    cases w.balances[address]? <;> rfl
  · funext address
    exact c.codeUnder w address

theorem underEmpty : c.under Changes.empty = c := by
  apply equalOfLookups <;> intro k
  · simp [storageUnder, Changes.empty]
  · simp [balancesUnder, Changes.empty]
  · simp [codeUnder, Changes.empty]

theorem underMerge : c.under (w.merge later) = (c.under w).under later := by
  apply equalOfLookups <;> intro k
  · simp only [storageUnder, Changes.merge, Std.ExtTreeMap.getElem?_union]
    cases later.storage[k]? <;> simp
  · simp only [balancesUnder, Changes.merge, Std.ExtTreeMap.getElem?_union, Option.or_assoc]
  · simp only [codeUnder, Changes.merge, Std.ExtTreeMap.getElem?_union, Option.or_assoc]

theorem underSetStorage (cell : Cell) (value : Option Bytes) :
    c.under (w.setStorage cell value) = (c.under w).setStorage cell value := by
  cases value with
  | some raw =>
    apply equalOfLookups <;> intro k
    · simp only [storageUnder, Changes.setStorage, setStorage, Std.ExtTreeMap.getElem?_insert]
      split <;> rfl
    · simp [balancesUnder, Changes.setStorage, setStorage]
    · simp [codeUnder, Changes.setStorage, setStorage]
  | none =>
    apply equalOfLookups <;> intro k
    · simp only [storageUnder, Changes.setStorage, setStorage, Std.ExtTreeMap.getElem?_insert,
        Std.ExtTreeMap.getElem?_erase]
      split <;> rfl
    · simp [balancesUnder, Changes.setStorage, setStorage]
    · simp [codeUnder, Changes.setStorage, setStorage]

theorem underSetBalance (address : Address) (amount : Amount) :
    c.under (w.setBalance address amount) = (c.under w).setBalance address amount := by
  apply equalOfLookups <;> intro k
  · simp [storageUnder, Changes.setBalance, setBalance]
  · simp only [balancesUnder, Changes.setBalance, setBalance, Std.ExtTreeMap.getElem?_insert]
    split <;> rfl
  · simp [codeUnder, Changes.setBalance, setBalance]

theorem underSetCode (address : Address) (code : Bytes) :
    c.under (w.setCode address code) = (c.under w).setCode address code := by
  apply equalOfLookups <;> intro k
  · simp [storageUnder, Changes.setCode, setCode]
  · simp [balancesUnder, Changes.setCode, setCode]
  · simp only [codeUnder, Changes.setCode, setCode, Std.ExtTreeMap.getElem?_insert]
    split <;> rfl

theorem ofStoreAbsorb (s : Store) : ofStore (s.absorb w) = (ofStore s).under w := rfl

end Content

end CallBoundary
