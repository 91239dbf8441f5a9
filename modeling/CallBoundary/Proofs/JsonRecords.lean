import CallBoundary.Proofs.JsonValues
import CallBoundary.Settings.Text
/-! Records as JSON objects. The members of a record are read by their names: in any order, any part of them, and with what
stands under other names passed over. What is read is the record that was there before, with the members given filled in.
Written out, a record is an object with all of its members. -/
namespace CallBoundary

namespace Json

def tagged (entry : String × Json) : Option String × Json := (some entry.1, entry.2)

def record (entries : List (String × Json)) : Json := .object (entries.map tagged)

def word (value : UInt64) : Json := .number (Nat.toDigits 10 value.toNat)

def Plain (text : List Char) : Prop := ∀ c ∈ text, 32 ≤ c.toNat ∧ c ≠ '"' ∧ c ≠ '\\'

instance (text : List Char) : Decidable (Plain text) := List.decidableBAll _ _

-- In any order, the fields with a chosen name, and besides them whatever stands under names that no field has.
def Carries (fields : List (String × Json)) (chosen : Finset String) (entries : List (String × Json)) : Prop :=
  ∃ strangers, entries.Perm (fields.filter (fun field => field.1 ∈ chosen) ++ strangers) ∧
    ∀ stranger ∈ strangers, stranger.1 ∉ fields.map Prod.fst

theorem carriesAll (fields : List (String × Json)) : Carries fields (fields.map Prod.fst).toFinset fields := by
  have all : (fields.filter fun field => field.1 ∈ (fields.map Prod.fst).toFinset) = fields := by
    refine List.filter_eq_self.mpr fun field member => decide_eq_true ?_
    exact List.mem_toFinset.mpr (List.mem_map.mpr ⟨field, member, rfl⟩)
  refine ⟨[], ?_, fun _ member => absurd member List.not_mem_nil⟩
  rw [all, List.append_nil]

theorem toDigitsLeading (n : Nat) (zero : (Nat.toDigits 10 n).head? = some '0') : Nat.toDigits 10 n = ['0'] := by
  induction n using Nat.strong_induction_on with
  | _ n ih =>
    by_cases single : n < 10
    · rw [Nat.toDigits_of_lt_base single] at zero ⊢
      simpa using zero
    · have grows : 10 ≤ n := Nat.not_lt.mp single
      have nonempty := Nat.toDigits_ne_nil (b := 10) (n := n / 10)
      rw [Nat.toDigits_of_base_le (by decide) grows, List.head?_append_of_ne_nil _ nonempty] at zero
      have small := ih (n / 10) (Nat.div_lt_self (by omega) (by decide)) zero
      have value : n / 10 = 0 := by
        rw [← Nat.ofDigitChars_ten_toDigits (n := n / 10), small]
        rfl
      omega

theorem toDigitsDigits (n : Nat) : Digits (Nat.toDigits 10 n) :=
  ⟨Nat.toDigits_ne_nil, fun _ member => Nat.isDigit_of_mem_toDigits (by decide) (by decide) member⟩

theorem toDigitsNumeral (n : Nat) : Numeral (Nat.toDigits 10 n) := by
  have whole := Unsigned.parts ⟨toDigitsDigits n, toDigitsLeading n⟩ .none .none
  rw [List.append_nil, List.append_nil] at whole
  exact .positive whole

theorem naturalToDigits (n : Nat) : natural? (Nat.toDigits 10 n) = some n := by
  have value : digitsValue (Nat.toDigits 10 n) = n := Nat.ofDigitChars_ten_toDigits
  rw [natural?, if_pos (allDigitsOf (toDigitsDigits n)), value]

theorem readWordOf (value : UInt64) : Member.readWord (word value) = some value := by
  rw [word, Member.readWord, naturalToDigits]
  have small : value.toNat < UInt64.size := value.toNat_lt
  simp [small]

theorem wordLaid (value : UInt64) : Laid (written (word value)) (toString value.toNat).toList := by
  rw [Nat.toString_eq_ofList_toDigits, String.toList_ofList]
  have laid := Laid.token (.number (toDigitsNumeral value.toNat)) .nil
  rwa [List.append_nil] at laid

theorem boolLaid (value : Bool) : Laid (written (.bool value)) (if value then "true" else "false").toList := by
  cases value with
  | false => exact Laid.token .false .nil
  | true => exact Laid.token .true .nil

theorem quotedPlain {text : List Char} (plain : Plain text) : Quoted text text := by
  induction text with
  | nil => exact .nil
  | cons c text ih =>
    obtain ⟨printable, unquoted, bare⟩ := plain c List.mem_cons_self
    exact .plain printable unquoted bare (ih fun d member => plain d (List.mem_cons_of_mem c member))

theorem nameLaid {name : String} (plain : Plain name.toList) {ts : List Token} {cs : List Char} (behind : Laid ts cs) :
    Laid (.string (some name) :: ts) ('"' :: (name.toList ++ '"' :: cs)) := by
  have laid := Laid.token (.string (quotedPlain plain)) behind
  rw [String.ofList_toList] at laid
  simpa using laid

end Json

namespace Member

open Json

variable {σ : Type} {members : List (Member σ)} {fields entries : List (String × Json)} {chosen : Finset String}

section Reading

variable {fill : Finset String → σ}

structure Fills (fill : Finset String → σ) (m : Member σ) (field : String × Json) : Prop where
  name : m.name = field.1
  read : ∀ names, m.read field.2 (fill names) = some (fill (insert field.1 names))

structure Table (members : List (Member σ)) (fields : List (String × Json)) (fill : Finset String → σ) : Prop where
  pairs : List.Forall₂ (Fills fill) members fields
  distinct : (fields.map Prod.fst).Nodup
  depends : ∀ names others, (∀ name ∈ fields.map Prod.fst, name ∈ names ↔ name ∈ others) → fill names = fill others

theorem foundListed (pairs : List.Forall₂ (Fills fill) members fields) (distinct : (fields.map Prod.fst).Nodup)
    {field : String × Json} (listed : field ∈ fields) :
    ∃ m, members.find? (fun m => m.name = field.1) = some m ∧ Fills fill m field := by
  induction pairs with
  | nil => cases listed
  | @cons m first members fields fills _ ih =>
    rw [List.map_cons, List.nodup_cons] at distinct
    rcases List.mem_cons.mp listed with rfl | behind
    · exact ⟨m, List.find?_cons_of_pos (by simp [fills.name]), fills⟩
    · have other : m.name ≠ field.1 := by
        intro same
        exact distinct.1 (List.mem_map.mpr ⟨field, behind, by rw [← same, fills.name]⟩)
      rw [List.find?_cons_of_neg (by simp [other])]
      exact ih distinct.2 behind

theorem foundNowhere (pairs : List.Forall₂ (Fills fill) members fields) {name : String}
    (unknown : name ∉ fields.map Prod.fst) :
    members.find? (fun m => m.name = name) = none := by
  induction pairs with
  | nil => rfl
  | @cons m first members fields fills _ ih =>
    rw [List.map_cons, List.mem_cons, not_or] at unknown
    have other : m.name ≠ name := fun same => unknown.1 (by rw [← same, fills.name])
    rw [List.find?_cons_of_neg (by simp [other])]
    exact ih unknown.2

def known (fields entries : List (String × Json)) : List String :=
  (entries.map Prod.fst).filter (· ∈ fields.map Prod.fst)

theorem knownOwn {entry : String × Json} (listed : entry.1 ∈ fields.map Prod.fst) :
    known fields (entry :: entries) = entry.1 :: known fields entries := by
  rw [known, List.map_cons, List.filter_cons_of_pos (by simpa using listed)]
  rfl

theorem knownOther {entry : String × Json} (unlisted : entry.1 ∉ fields.map Prod.fst) :
    known fields (entry :: entries) = known fields entries := by
  rw [known, List.map_cons, List.filter_cons_of_neg (by simpa using unlisted)]
  rfl

theorem readEntries (table : Table members fields fill) {seen : List String} {names : Finset String}
    (own : ∀ entry ∈ entries, entry.1 ∈ fields.map Prod.fst → entry ∈ fields)
    (fresh : (known fields entries).Nodup) (unseen : ∀ name ∈ known fields entries, name ∉ seen) :
    readObject members seen (fill names) (entries.map tagged) = some (fill (names ∪ (known fields entries).toFinset)) := by
  induction entries generalizing seen names with
  | nil => simp [readObject, known]
  | cons entry entries ih =>
    have behind := fun other member => own other (List.mem_cons_of_mem entry member)
    by_cases listed : entry.1 ∈ fields.map Prod.fst
    · rw [knownOwn listed] at fresh unseen ⊢
      obtain ⟨m, found, fills⟩ := foundListed table.pairs table.distinct (own entry List.mem_cons_self listed)
      obtain ⟨once, fresh⟩ := List.nodup_cons.mp fresh
      have later : ∀ name ∈ known fields entries, name ∉ entry.1 :: seen := by
        intro name member
        rw [List.mem_cons, not_or]
        exact ⟨fun same => once (same ▸ member), unseen name (List.mem_cons_of_mem _ member)⟩
      have read : readObject members seen (fill names) ((entry :: entries).map tagged) =
          readObject members (entry.1 :: seen) (fill (insert entry.1 names)) (entries.map tagged) := by
        simp [readObject, tagged, found, unseen entry.1 List.mem_cons_self, fills.read names]
      rw [read, ih behind fresh later, List.toFinset_cons, Finset.insert_union, Finset.union_insert]
    · rw [knownOther listed] at fresh unseen ⊢
      have read : readObject members seen (fill names) ((entry :: entries).map tagged) =
          readObject members seen (fill names) (entries.map tagged) := by
        simp [readObject, tagged, foundNowhere table.pairs listed]
      rw [read, ih behind fresh unseen]

theorem knownCarried (carried : Carries fields chosen entries) :
    (known fields entries).Perm ((fields.filter fun field => field.1 ∈ chosen).map Prod.fst) := by
  obtain ⟨strangers, order, strange⟩ := carried
  have chosenKnown : known fields (fields.filter fun field => field.1 ∈ chosen) =
      (fields.filter fun field => field.1 ∈ chosen).map Prod.fst := by
    refine List.filter_eq_self.mpr fun name member => ?_
    obtain ⟨field, among, rfl⟩ := List.mem_map.mp member
    exact decide_eq_true (List.mem_map.mpr ⟨field, List.mem_of_mem_filter among, rfl⟩)
  have noStranger : known fields strangers = [] := by
    refine List.filter_eq_nil_iff.mpr fun name member => ?_
    obtain ⟨stranger, among, rfl⟩ := List.mem_map.mp member
    simpa using strange stranger among
  have parts : known fields ((fields.filter fun field => field.1 ∈ chosen) ++ strangers) =
      (fields.filter fun field => field.1 ∈ chosen).map Prod.fst := by
    rw [known, List.map_append, List.filter_append]
    exact (congrArg₂ (· ++ ·) chosenKnown noStranger).trans (List.append_nil _)
  rw [← parts]
  exact (order.map Prod.fst).filter _

theorem ownCarried (carried : Carries fields chosen entries) :
    ∀ entry ∈ entries, entry.1 ∈ fields.map Prod.fst → entry ∈ fields := by
  obtain ⟨strangers, order, strange⟩ := carried
  intro entry member listed
  rcases List.mem_append.mp (order.mem_iff.mp member) with own | other
  · exact List.mem_of_mem_filter own
  · exact absurd listed (strange entry other)

theorem readCarried (table : Table members fields fill) (carried : Carries fields chosen entries) :
    readRecord members (fill ∅) (record entries) = some (fill chosen) := by
  have order := knownCarried carried
  have fresh : (known fields entries).Nodup :=
    order.nodup_iff.mpr (table.distinct.sublist (List.filter_sublist.map Prod.fst))
  have read : readObject members [] (fill ∅) (entries.map tagged) = some (fill (∅ ∪ (known fields entries).toFinset)) :=
    readEntries table (ownCarried carried) fresh fun _ _ => List.not_mem_nil
  have filled : fill (∅ ∪ (known fields entries).toFinset) = fill chosen := by
    refine table.depends _ _ fun name listed => ?_
    rw [Finset.empty_union, List.mem_toFinset, order.mem_iff]
    constructor
    · intro member
      obtain ⟨field, among, rfl⟩ := List.mem_map.mp member
      exact of_decide_eq_true (List.mem_filter.mp among).2
    · intro picked
      obtain ⟨field, among, rfl⟩ := List.mem_map.mp listed
      exact List.mem_map.mpr ⟨field, List.mem_filter.mpr ⟨among, decide_eq_true picked⟩, rfl⟩
  exact read.trans (congrArg some filled)

theorem ofWordFills {name : String} {get : σ → UInt64} {set : σ → UInt64 → σ} {value : UInt64}
    (sets : ∀ names, set (fill names) value = fill (insert name names)) :
    Fills fill (ofWord name get set) (name, word value) where
  name := rfl
  read names := by
    have read : (readWord (word value)).map (set (fill names)) = some (fill (insert name names)) := by
      rw [readWordOf, Option.map_some, sets]
    exact read

end Reading

section Writing

variable {r : σ}

structure Writes (r : σ) (m : Member σ) (field : String × Json) : Prop where
  name : m.name = field.1
  plain : Plain field.1.toList
  spells : Spells field.2 (m.write r)

theorem ofWordWrites {name : String} {get : σ → UInt64} {set : σ → UInt64 → σ} (plain : Plain name.toList) :
    Writes r (ofWord name get set) (name, word (get r)) :=
  ⟨rfl, plain, wordLaid (get r)⟩

def memberText (r : σ) (m : Member σ) : List Char := '"' :: (m.name.toList ++ '"' :: ':' :: (m.write r).toList)

theorem memberLaid {m : Member σ} {field : String × Json} (writes : Writes r m field) {ts : List Token} {rest : List Char}
    (behind : Laid ts rest) :
    Laid (.string (some field.1) :: .colon :: (written field.2 ++ ts)) (memberText r m ++ rest) := by
  have laid := nameLaid writes.plain (.token .colon (laidAppend writes.spells behind))
  simpa [memberText, writes.name] using laid

theorem membersLaid {m : Member σ} {field : String × Json} (first : Writes r m field)
    (pairs : List.Forall₂ (Writes r) members fields) :
    Laid (.string (some field.1) :: .colon :: (written field.2 ++ writtenMembers (fields.map tagged)))
      ([','].intercalate ((m :: members).map (memberText r)) ++ ['\x7d']) := by
  induction pairs generalizing m field with
  | nil => simpa [writtenMembers] using memberLaid first (.token .closeObject .nil)
  | cons next _ ih =>
    have behind := memberLaid first (.token .comma (ih next))
    simpa [List.intercalate_cons_cons, writtenMembers, tagged] using behind

theorem writtenSpells (pairs : List.Forall₂ (Writes r) members fields) : Spells (record fields) (writeRecord members r) := by
  have text : (writeRecord members r).toList = '\x7b' :: ([','].intercalate (members.map (memberText r)) ++ ['\x7d']) := by
    simp [writeRecord, String.toList_intercalate, Function.comp_def]
    rfl
  rw [Spells, text]
  cases pairs with
  | nil => exact Laid.token .openObject (.token .closeObject .nil)
  | cons first behind => exact Laid.token .openObject (membersLaid first behind)

end Writing

end Member
end CallBoundary
