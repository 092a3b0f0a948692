import ScriptBridge.Proofs.Marshal
import ScriptBridge.Proofs.Pinning
import ScriptBridge.Proofs.Sequence

/-!
# What pushed values are pulled as

A pushed value is pulled as itself, but for integers, which are signed then, and for arrays, for
each of which there is a new table with the items in it. That stays so whatever is pushed next: old
tables are left alone and old userdata stand for what they stood for.
-/

namespace ScriptBridge

lemma getElem?_of_grows {α : Type} {before after : Array α} (grows : before.toList <+: after.toList)
    {i : Nat} (bound : i < before.size) : after[i]? = before[i]? := by
  obtain ⟨more, eq⟩ := grows
  rw [← Array.getElem?_toList, ← Array.getElem?_toList, ← eq]
  exact List.getElem?_append_left bound

lemma size_le_of_grows {α : Type} {before after : Array α}
    (grows : before.toList <+: after.toList) : before.size ≤ after.size :=
  grows.length_le

namespace Script

open Bridge

/-- Tables are as they were, and userdata stand for what they stood for; there may be more. -/
structure Heap.Later (h h' : Heap) : Prop where
  grows : h.Extends h'
  pulls : ∀ id, id < h.userdata.size → pull h' (.userdata id) = pull h (.userdata id)

namespace Heap

variable {h h' h'' : Heap} {made : Ledger} {proxies : List Proxy}

lemma Later.refl (h : Heap) : h.Later h :=
  ⟨.refl h, fun _ _ => rfl⟩

lemma Later.trans (first : h.Later h') (second : h'.Later h'') : h.Later h'' where
  grows := first.grows.trans second.grows
  pulls id bound := by
    rw [second.pulls id (Nat.lt_of_lt_of_le bound (size_le_of_grows first.grows.userdata))]
    exact first.pulls id bound

lemma table_of_grows (grows : h.tables.toList <+: h'.tables.toList) {id : Nat}
    (bound : id < h.tables.size) : h'.table id = h.table id := by
  rw [Heap.table, Heap.table, getElem?_of_grows grows bound]

lemma Later.table (later : h.Later h') {id : Nat} (bound : id < h.tables.size) :
    h'.table id = h.table id :=
  table_of_grows later.grows.tables bound

/-- A new table concerns nothing that was there. -/
lemma later_newTable (h : Heap) (t : Table) : h.Later (h.newTable t).2 :=
  ⟨.newTable h t, fun _ _ => rfl⟩

/-- Proxies stay what they are when more are made. -/
lemma Tallies.later (tallies : h.Tallies proxies) (makes : h.Makes made h') (grows : h.Extends h')
    (room : h'.handles.slots.size ≤ UInt32.size) :
    h.Later h' ∧ ∃ more : List Proxy, more.map (fun p => (p.id, p.pinned)) = made ∧
      h'.Tallies (proxies ++ more) := by
  obtain ⟨more, eq, tallies'⟩ := tallies.makes makes room
  refine ⟨⟨grows, fun id bound => ?_⟩, more, eq, tallies'⟩
  by_cases found : ∃ p ∈ proxies, p.id = id
  · obtain ⟨p, mem, rfl⟩ := found
    rw [tallies.pull mem, tallies'.pull (List.mem_append_left more mem)]
  · -- what stands for nothing is the same userdata still, and has no handle
    have others : ∀ p ∈ proxies, p.id ≠ id := fun p mem same => found ⟨p, mem, same⟩
    have same : h'.userdatum id = h.userdatum id := by
      rw [userdatum, userdatum, getElem?_of_grows grows.userdata bound]
    have none : (h'.userdatum id).handle? = none := same ▸ tallies.handle?_eq_none others
    rw [tallies.pull_eq_nil others]
    exact tallies'.pull_eq_nil fun p mem same => by
      rw [← same, tallies'.handle_eq mem] at none
      cases none

end Heap

end Script

namespace HostValue

mutual

/-- The value as scripts have it: all integers are signed. -/
def scripted : HostValue → HostValue
  | unsigned u => int (Int64.ofInt u.toNat)
  | array items => array (scriptedAll items)
  | v => v

def scriptedAll : List HostValue → List HostValue
  | [] => []
  | v :: vs => v.scripted :: scriptedAll vs

end

lemma scriptedAll_eq (vs : List HostValue) : scriptedAll vs = vs.map scripted := by
  induction vs with
  | nil => rfl
  | cons v vs ih => rw [scriptedAll, ih, List.map_cons]

/-- An unsigned integer that scripts have a place for stays the number that it is. -/
lemma integer?_scripted {u : UInt64} (fits : (unsigned u).isUnscriptable = false) :
    (unsigned u).scripted.integer? = some (u.toNat : Int) := by
  have below : ¬ 2 ^ 63 ≤ u.toNat := of_decide_eq_false fits
  exact congrArg some (Int64.toInt_ofInt_of_le (by omega) (by omega))

/-- Arrays have no nil in them, and 64 bits are enough for their positions. -/
structure IsSequential (v : HostValue) : Prop where
  filled : ∀ items, array items ∈ v.parts → ∀ item ∈ items, item.isNil = false
  short : ∀ items, array items ∈ v.parts → items.length ≤ UInt64.size

lemma IsSequential.item {items : List HostValue} {v : HostValue}
    (sequential : (array items).IsSequential) (mem : v ∈ items) : v.IsSequential :=
  ⟨fun inner part => sequential.filled inner (mem_parts_of_mem mem part),
    fun inner part => sequential.short inner (mem_parts_of_mem mem part)⟩

end HostValue

namespace Bridge

open Script HostValue

/-- The second value is what the first one is pulled as after it was pushed, if the tables that
were made for its arrays are those from a number on. -/
inductive Arrives (h : Heap) (old : Nat) : HostValue → HostValue → Prop
  | copied {v : HostValue} (plain : ∀ items, v ≠ .array items) : Arrives h old v v.scripted
  | array {items : List HostValue} {id : Nat} (made : old ≤ id)
      (each : List.Forall₂ (Arrives h old) items (pullAll h (h.sequence id))) :
      Arrives h old (.array items) (.table id)

variable {h h₁ h₂ : Heap} {proxies : List Proxy} {old : Nat}

/-- Nothing else is pushed as nil. -/
lemma isNil_of_push {v : HostValue} {x : Value} (pushed : push h v = (.ok x, h₁)) :
    x.isNil = v.isNil := by
  cases v with
  | unsigned u =>
    unfold push at pushed
    split at pushed <;> cases pushed
    rfl
  | array items =>
    unfold push at pushed
    split at pushed <;> cases pushed
    rfl
  | big n => cases pushed
  | _ =>
    cases pushed
    rfl

lemma isNil_of_pushAll {vs : List HostValue} {xs : List Value}
    (pushed : pushAll h vs = (.ok xs, h₁))
    (filled : ∀ v ∈ vs, v.isNil = false) {x : Value} (mem : x ∈ xs) : x.isNil = false := by
  induction vs generalizing h xs with
  | nil =>
    cases pushed
    cases mem
  | cons v rest ih =>
    unfold pushAll at pushed
    split at pushed
    · cases pushed
    · rename_i y h' eq
      split at pushed
      · cases pushed
      · rename_i others
        cases pushed
        rcases List.mem_cons.1 mem with rfl | mem
        · rw [isNil_of_push eq]
          exact filled v List.mem_cons_self
        · exact ih others (fun v mem => filled v (List.mem_cons_of_mem _ mem)) mem

lemma push_later {v : HostValue} {answer : Except BridgeError Value} (tallies : h.Tallies proxies)
    (pushed : push h v = (answer, h₁)) (room : h₁.handles.slots.size ≤ UInt32.size) :
    h.Later h₁ ∧ ∃ more, h₁.Tallies (proxies ++ more) := by
  obtain ⟨made, makes, -⟩ := push_pins h v
  have grows := Heap.Extends.push h v
  rw [pushed] at makes grows
  obtain ⟨later, more, -, tallies'⟩ := tallies.later makes grows room
  exact ⟨later, more, tallies'⟩

lemma pushAll_later {vs : List HostValue} {answer : Except BridgeError (List Value)}
    (tallies : h.Tallies proxies) (pushed : pushAll h vs = (answer, h₁))
    (room : h₁.handles.slots.size ≤ UInt32.size) : h.Later h₁ := by
  obtain ⟨made, makes, -⟩ := pushAll_pins h vs
  have grows := Heap.Extends.pushAll h vs
  rw [pushed] at makes grows
  exact (tallies.later makes grows room).1

lemma slots_le_push (h : Heap) (v : HostValue) :
    h.handles.slots.size ≤ (push h v).2.handles.slots.size := by
  obtain ⟨made, makes, -⟩ := push_pins h v
  exact makes.slots_le

lemma slots_le_pushAll {vs : List HostValue} {answer : Except BridgeError (List Value)}
    (pushed : pushAll h vs = (answer, h₁)) : h.handles.slots.size ≤ h₁.handles.slots.size := by
  obtain ⟨made, makes, -⟩ := pushAll_pins h vs
  rw [pushed] at makes
  exact makes.slots_le

/-- A new proxy is pulled as what it was made for, whatever is pushed before. -/
lemma pull_of_makes {id : Nat} {pinned : Pinned} (tallies : h.Tallies proxies)
    (makes : h.Makes [(id, pinned)] h₁) (room : h₁.handles.slots.size ≤ UInt32.size)
    (later : h₁.Later h₂) : pull h₂ (.userdata id) = pinned.value := by
  obtain ⟨more, eq, tallies'⟩ := tallies.makes makes room
  obtain ⟨p, rfl, same⟩ := List.map_eq_singleton_iff.1 eq
  cases same
  have mem : p ∈ proxies ++ [p] := List.mem_append_right proxies List.mem_cons_self
  rw [later.pulls p.id (tallies'.lt_size mem)]
  exact tallies'.pull mem

mutual

/-- What was pushed arrives, whatever else is pushed before it is pulled. -/
theorem push_arrives {x : Value} (h h₁ h₂ : Heap) (v : HostValue) {proxies : List Proxy} {old : Nat}
    (tallies : h.Tallies proxies) (start : old ≤ h.tables.size) (sequential : v.IsSequential)
    (pushed : push h v = (.ok x, h₁)) (room : h₁.handles.slots.size ≤ UInt32.size)
    (later : h₁.Later h₂) : Arrives h₂ old v (pull h₂ x) := by
  cases v with
  | unsigned u =>
    unfold push at pushed
    split at pushed <;> cases pushed
    exact .copied fun _ => HostValue.noConfusion
  | big n => cases pushed
  | str s =>
    cases pushed
    have text : pull h₂ (.ofString s) = .str s := congrArg HostValue.str (Text.decode_toUTF8 s)
    rw [text]
    exact .copied fun _ => HostValue.noConfusion
  | object o =>
    cases pushed
    have value := pull_of_makes tallies (.object h o) room later
    show Arrives h₂ old (.object o) (pull h₂ (.userdata h.userdata.size))
    rw [value]
    exact .copied fun _ => HostValue.noConfusion
  | type t =>
    cases pushed
    have value := pull_of_makes tallies (.type h t) room later
    show Arrives h₂ old (.type t) (pull h₂ (.userdata h.userdata.size))
    rw [value]
    exact .copied fun _ => HostValue.noConfusion
  | array items =>
    unfold push at pushed
    split at pushed
    · rename_i xs h' eq
      cases pushed
      have grows : h.Extends h' := by
        have made := Heap.Extends.pushAll h items
        rwa [eq] at made
      -- the items were there before the table was made, so they arrive in any later heap too
      have each := pushAll_arrives h h' h₂ items tallies start (fun v mem => sequential.item mem) eq
        room ((Heap.later_newTable h' _).trans later)
      have filled : ∀ x ∈ xs, x.isNil = false := fun x mem =>
        isNil_of_pushAll eq (sequential.filled items (self_mem_parts _)) mem
      have short : xs.length ≤ UInt64.size := by
        rw [← each.length_eq]
        exact sequential.short items (self_mem_parts _)
      have table : h₂.table h'.tables.size = .ofList xs := by
        rw [later.table (by simp)]
        simp [Heap.table]
      refine .array (Nat.le_trans start (size_le_of_grows grows.tables)) ?_
      rw [Heap.sequence, Heap.length, table, Table.upTo_ofList h₂.border filled short]
      exact List.forall₂_map_right_iff.2 each
    · cases pushed
  | _ =>
    cases pushed
    exact .copied fun _ => HostValue.noConfusion

theorem pushAll_arrives {xs : List Value} (h h₁ h₂ : Heap) (vs : List HostValue)
    {proxies : List Proxy} {old : Nat} (tallies : h.Tallies proxies) (start : old ≤ h.tables.size)
    (sequential : ∀ v ∈ vs, v.IsSequential) (pushed : pushAll h vs = (.ok xs, h₁))
    (room : h₁.handles.slots.size ≤ UInt32.size) (later : h₁.Later h₂) :
    List.Forall₂ (fun v x => Arrives h₂ old v (pull h₂ x)) vs xs := by
  cases vs with
  | nil =>
    cases pushed
    exact .nil
  | cons v rest =>
    unfold pushAll at pushed
    split at pushed
    · cases pushed
    · rename_i x h' eq
      split at pushed
      · cases pushed
      · rename_i xs h'' others
        cases pushed
        have room' := Nat.le_trans (slots_le_pushAll others) room
        obtain ⟨between, more, tallies'⟩ := push_later tallies eq room'
        have start' := Nat.le_trans start (size_le_of_grows between.grows.tables)
        refine .cons ?_ ?_
        · exact push_arrives h h' h₂ v tallies start (sequential v List.mem_cons_self) eq room'
            ((pushAll_later tallies' others room).trans later)
        · exact pushAll_arrives h' h₁ h₂ rest tallies' start'
            (fun v mem => sequential v (List.mem_cons_of_mem _ mem)) others room later

end

end Bridge

end ScriptBridge
