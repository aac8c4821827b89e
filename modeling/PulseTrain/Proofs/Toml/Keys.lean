import PulseTrain.Toml.Table
import Mathlib.Data.List.Nodup

/-!
# The keys of tables

The tables of a document are built piece by piece: a value is set where its key is missing, a table
that has grown takes its own place, and an implied table that gets its header moves to the end. None
of this puts a key where it stands already, so no table comes to have a key twice.

* **`KeysApart`**: no key twice in one table, and what that says about looking up.
* **`Value.Unambiguous`**, **`Nodes.Unambiguous`**: no key twice in any table, of a value and of a
  table under construction.
* **`Nodes.Unambiguous.assign`**, **`Nodes.Unambiguous.changeAt`**: to set a value and to change the
  table at the end of a path keep it, and so do **`Nodes.Unambiguous.defineTable`** and
  **`Nodes.Unambiguous.addElement`**.
* **`Nodes.Unambiguous.toValue`**: the table that comes out has it.
-/

namespace PulseTrain.Toml

variable {α : Type} {key : String}

/-! ## One table -/

/-- No key stands twice in the table. -/
def KeysApart (entries : List (String × α)) : Prop := (entries.map Prod.fst).Nodup

instance (entries : List (String × α)) : Decidable (KeysApart entries) :=
  inferInstanceAs (Decidable (entries.map Prod.fst).Nodup)

section KeysApart

variable {entries entries' : List (String × α)}

/-- A key is missing if no entry has it. -/
theorem lookup_eq_none_iff_not_mem : entries.lookup key = none ↔ key ∉ entries.map Prod.fst := by
  rw [List.lookup_eq_none_iff, List.mem_map]
  constructor
  · rintro hnone ⟨e, he, rfl⟩
    exact absurd (hnone e he) (by simp)
  · intro habsent e he
    rw [bne_iff_ne]
    exact fun hkey => habsent ⟨e, he, hkey.symm⟩

/-- What is looked up is what stands in the table. -/
theorem KeysApart.lookup_eq_some_iff (h : KeysApart entries) {a : α} :
    entries.lookup key = some a ↔ (key, a) ∈ entries := by
  rw [List.lookup_eq_some_iff]
  constructor
  · rintro ⟨before, after, rfl, -⟩
    exact List.mem_append_right _ List.mem_cons_self
  · intro hmem
    obtain ⟨before, after, rfl⟩ := List.append_of_mem hmem
    refine ⟨before, after, rfl, fun e he => bne_iff_ne.mpr fun hkey => ?_⟩
    rw [KeysApart, List.map_append, List.nodup_append] at h
    exact h.2.2 _ (List.mem_map_of_mem he) _ (List.mem_map_of_mem List.mem_cons_self) hkey.symm

theorem KeysApart.perm (h : KeysApart entries) (hperm : entries.Perm entries') :
    KeysApart entries' :=
  (hperm.map Prod.fst).nodup_iff.mp h

/-- The order of the entries makes no difference. -/
theorem KeysApart.lookup_eq_of_perm (h : KeysApart entries) (hperm : entries.Perm entries') :
    entries.lookup key = entries'.lookup key := by
  apply Option.ext
  intro a
  rw [h.lookup_eq_some_iff, (h.perm hperm).lookup_eq_some_iff, hperm.mem_iff]

/-- Keys are apart if they are without one of them, which is none of the others. -/
theorem keysApart_middle {before after : List (String × α)} {a : α} :
    KeysApart (before ++ (key, a) :: after) ↔
      key ∉ (before ++ after).map Prod.fst ∧ KeysApart (before ++ after) := by
  unfold KeysApart
  rw [(List.perm_middle.map Prod.fst).nodup_iff, List.map_cons, List.nodup_cons]

/-- A key that stands once is found wherever it stands. -/
theorem KeysApart.lookup_middle {before after : List (String × α)} {a : α}
    (h : KeysApart (before ++ (key, a) :: after)) :
    (before ++ (key, a) :: after).lookup key = some a :=
  h.lookup_eq_some_iff.mpr (List.mem_append_right before List.mem_cons_self)

theorem KeysApart.replaced {before after : List (String × α)} {a a' : α}
    (h : KeysApart (before ++ (key, a) :: after)) : KeysApart (before ++ (key, a') :: after) := by
  rw [keysApart_middle] at h ⊢
  exact h

theorem lookup_middle_of_ne {before after : List (String × α)} {a : α} {key' : String}
    (h : key' ≠ key) : (before ++ (key, a) :: after).lookup key' = (before ++ after).lookup key' := by
  rw [List.lookup_append, List.lookup_append, List.lookup_cons, beq_eq_false_iff_ne.mpr h]

end KeysApart

/-! ## All tables of a value -/

/-- No table has a key twice, neither the value nor any inside it. -/
inductive Value.Unambiguous : Value → Prop
  | string (text : String) : Unambiguous (.string text)
  | integer (n : Int) : Unambiguous (.integer n)
  | float (x : Float) : Unambiguous (.float x)
  | boolean (b : Bool) : Unambiguous (.boolean b)
  | datetime (d : Datetime) : Unambiguous (.datetime d)
  | array {items : List Value} (inner : ∀ item ∈ items, Unambiguous item) :
    Unambiguous (.array items)
  | table {entries : Entries} (apart : KeysApart entries)
    (inner : ∀ e ∈ entries, Unambiguous e.2) : Unambiguous (.table entries)

/-- A table has no key twice at any depth if it has none itself, and none of its values has. -/
theorem unambiguous_table_iff {entries : Entries} :
    (Value.table entries).Unambiguous ↔ KeysApart entries ∧ ∀ e ∈ entries, e.2.Unambiguous := by
  constructor
  · rintro ⟨⟩
    exact ⟨‹_›, ‹_›⟩
  · exact fun h => .table h.1 h.2

/-- No table has a key twice, neither the node nor any inside it. -/
inductive Node.Unambiguous : Node → Prop
  | value {v : Value} (h : v.Unambiguous) : Unambiguous (.value v)
  | table {entries : Nodes} (origin : Origin) (apart : KeysApart entries)
    (inner : ∀ e ∈ entries, Unambiguous e.2) : Unambiguous (.table origin entries)
  | elements {tables : List Nodes} (apart : ∀ table ∈ tables, KeysApart table)
    (inner : ∀ table ∈ tables, ∀ e ∈ table, Unambiguous e.2) : Unambiguous (.elements tables)

namespace Nodes

/-- No key twice in the table, nor in any inside it. -/
structure Unambiguous (entries : Nodes) : Prop where
  apart : KeysApart entries
  inner : ∀ e ∈ entries, e.2.Unambiguous

theorem unambiguous_nil : Unambiguous [] := ⟨List.nodup_nil, nofun⟩

theorem unambiguous_table_iff {origin : Origin} {entries : Nodes} :
    (Node.table origin entries).Unambiguous ↔ Unambiguous entries := by
  constructor
  · rintro ⟨⟩
    exact ⟨‹_›, ‹_›⟩
  · exact fun h => .table origin h.apart h.inner

theorem unambiguous_elements_iff {tables : List Nodes} :
    (Node.elements tables).Unambiguous ↔ ∀ table ∈ tables, Unambiguous table := by
  constructor
  · rintro (_ | _ | ⟨apart, inner⟩) table htable
    exact ⟨apart table htable, inner table htable⟩
  · exact fun h => .elements (fun table htable => (h table htable).apart)
      fun table htable => (h table htable).inner

/-! ## One change -/

variable {entries entries' : Nodes} {node : Node} {value : Value} {path : List String}

namespace Unambiguous

/-- What is found in such a table is without double keys itself. -/
theorem lookup (h : Unambiguous entries) (hfound : entries.lookup key = some node) :
    node.Unambiguous :=
  h.inner (key, node) (h.apart.lookup_eq_some_iff.mp hfound)

/-- A new key may be added at the end. -/
theorem concat (h : Unambiguous entries) (hnew : key ∉ entries.map Prod.fst)
    (hnode : node.Unambiguous) : Unambiguous (entries ++ [(key, node)]) := by
  constructor
  · rw [keysApart_middle, List.append_nil]
    exact ⟨hnew, h.apart⟩
  · intro e he
    rcases List.mem_append.mp he with he | he
    · exact h.inner e he
    · rw [List.mem_singleton.mp he]
      exact hnode

/-- What stands under a key may be replaced. -/
theorem replace (h : Unambiguous entries) (hnode : node.Unambiguous) :
    Unambiguous (entries.replace key node) := by
  constructor
  · -- the keys stay where they are
    have hkeys : (entries.replace key node).map Prod.fst = entries.map Prod.fst := by
      unfold Nodes.replace
      rw [List.map_map]
      refine List.map_congr_left fun e _ => ?_
      by_cases hkey : e.1 = key <;> simp [hkey]
    rw [KeysApart, hkeys]
    exact h.apart
  · intro e he
    obtain ⟨e, hmem, rfl⟩ := List.mem_map.mp he
    split
    · exact hnode
    · exact h.inner e hmem

theorem remove (h : Unambiguous entries) (key : String) : Unambiguous (entries.remove key) :=
  ⟨h.apart.sublist (List.filter_sublist.map Prod.fst),
    fun e he => h.inner e (List.mem_of_mem_filter he)⟩

/-- What is taken out can be put at the end. -/
theorem remove_concat (h : Unambiguous entries) (hnode : node.Unambiguous) :
    Unambiguous (entries.remove key ++ [(key, node)]) := by
  refine (h.remove key).concat ?_ hnode
  rw [List.mem_map]
  rintro ⟨e, he, hkey⟩
  exact absurd hkey (by simpa using List.of_mem_filter he)

end Unambiguous

/-- To change the last element of an array keeps the keys apart, if the change does. -/
theorem unambiguous_changeLast {change : Nodes → Option Nodes} {tables tables' : List Nodes}
    (hchange : ∀ {table table'}, Unambiguous table → change table = some table' →
      Unambiguous table')
    (h : ∀ table ∈ tables, Unambiguous table) (hsome : changeLast change tables = some tables') :
    ∀ table ∈ tables', Unambiguous table := by
  -- induction on the elements, with a case for one and for more, as in the definition
  induction tables generalizing tables' with
  | nil => cases hsome
  | cons first rest ih =>
    cases rest with
    | nil =>
      obtain ⟨last, hlast, rfl⟩ := Option.map_eq_some_iff.mp hsome
      rw [List.forall_mem_singleton]
      exact hchange (h first List.mem_cons_self) hlast
    | cons second rest =>
      obtain ⟨changed, hchanged, rfl⟩ := Option.map_eq_some_iff.mp hsome
      rw [List.forall_mem_cons] at h ⊢
      exact ⟨h.1, ih h.2 hchanged⟩

/-- An array of tables, of which the last has changed, takes its own place. -/
theorem Unambiguous.replace_elements (h : Unambiguous entries) {tables : List Nodes}
    (hfound : entries.lookup key = some (.elements tables)) {change : Nodes → Option Nodes}
    (hchange : ∀ {table table'}, Unambiguous table → change table = some table' →
      Unambiguous table')
    (hsome : (changeLast change tables).bind
      (fun changed => some (entries.replace key (.elements changed))) = some entries') :
    Unambiguous entries' := by
  obtain ⟨changed, hchanged, hsome⟩ := Option.bind_eq_some_iff.mp hsome
  cases hsome
  have htables := unambiguous_elements_iff.mp (h.lookup hfound)
  exact h.replace (unambiguous_elements_iff.mpr (unambiguous_changeLast hchange htables hchanged))

/-- A table that has changed takes its own place. -/
theorem Unambiguous.replace_table (h : Unambiguous entries) {origin : Origin} {inner : Nodes}
    (hfound : entries.lookup key = some (.table origin inner)) {changed : Option Nodes}
    (hchange : ∀ {inner'}, Unambiguous inner → changed = some inner' → Unambiguous inner')
    (hsome : changed.bind (fun inner' => some (entries.replace key (.table origin inner'))) =
      some entries') : Unambiguous entries' := by
  obtain ⟨inner', hinner, hsome⟩ := Option.bind_eq_some_iff.mp hsome
  cases hsome
  have hheld := unambiguous_table_iff.mp (h.lookup hfound)
  exact h.replace (unambiguous_table_iff.mpr (hchange hheld hinner))

/-- A table for a key that is missing goes to the end. -/
theorem Unambiguous.concat_table (h : Unambiguous entries) (hmissing : entries.lookup key = none)
    {origin : Origin} {made : Option Nodes} (hmade : ∀ {inner}, made = some inner → Unambiguous inner)
    (hsome : made.bind (fun inner => some (entries ++ [(key, .table origin inner)])) =
      some entries') : Unambiguous entries' := by
  obtain ⟨inner, hinner, hsome⟩ := Option.bind_eq_some_iff.mp hsome
  cases hsome
  exact h.concat (lookup_eq_none_iff_not_mem.mp hmissing) (unambiguous_table_iff.mpr (hmade hinner))

/-- **To set a value** keeps the keys apart, by induction on the path: a key is put at the end where
it is missing, and else the table under it has changed. -/
theorem Unambiguous.assign (h : Unambiguous entries) (hvalue : value.Unambiguous) {isOpen : Bool}
    (hsome : entries.assign path value isOpen = some entries') : Unambiguous entries' := by
  induction path generalizing entries entries' isOpen with
  | nil => cases hsome
  | cons key rest ih =>
    cases rest with
    | nil =>
      rw [Nodes.assign] at hsome
      split at hsome
      · rename_i hfree
        cases hsome
        have hmissing := Option.isNone_iff_eq_none.mp hfree.2
        exact h.concat (lookup_eq_none_iff_not_mem.mp hmissing) (.value hvalue)
      · cases hsome
    | cons next rest =>
      rw [Nodes.assign] at hsome
      · -- a table on the way is made, gone into, or found to be of a kind that is closed
        split at hsome
        · rename_i hmissing
          exact h.concat_table hmissing (fun hmade => ih unambiguous_nil hmade) hsome
        · cases hsome
        · rename_i hfound
          exact h.replace_table hfound (fun hheld hchanged => ih hheld hchanged) hsome
        · rename_i hfound
          exact h.replace_elements hfound (fun hheld hchanged => ih hheld hchanged) hsome
        · cases hsome
      · nofun

/-- To set one value after the other keeps the keys apart. -/
theorem Unambiguous.assignAll {assignments : Assignments} (h : Unambiguous entries)
    (hvalues : ∀ a ∈ assignments, a.2.Unambiguous)
    (hsome : entries.assignAll assignments = some entries') : Unambiguous entries' := by
  induction assignments generalizing entries with
  | nil =>
    cases hsome
    exact h
  | cons a rest ih =>
    rw [List.forall_mem_cons] at hvalues
    obtain ⟨assigned, hassigned, hrest⟩ := Option.bind_eq_some_iff.mp hsome
    exact ih (h.assign hvalues.1 hassigned) hvalues.2 hrest

/-- **To change the table at the end of a path** keeps the keys apart, if the change does. -/
theorem Unambiguous.changeAt {change : Nodes → Option Nodes}
    (hchange : ∀ {table table'}, Unambiguous table → change table = some table' →
      Unambiguous table')
    (h : Unambiguous entries) (hsome : entries.changeAt path change = some entries') :
    Unambiguous entries' := by
  induction path generalizing entries entries' with
  | nil => exact hchange h hsome
  | cons key rest ih =>
    rw [Nodes.changeAt] at hsome
    split at hsome
    · rename_i hmissing
      exact h.concat_table hmissing (fun hmade => ih unambiguous_nil hmade) hsome
    · rename_i hfound
      exact h.replace_table hfound (fun hheld hchanged => ih hheld hchanged) hsome
    · rename_i hfound
      exact h.replace_elements hfound (fun hheld hchanged => ih hheld hchanged) hsome
    · cases hsome

/-! ## Headers -/

/-- A header that defines a table keeps the keys apart: the table moves to the end if it was
there. -/
theorem Unambiguous.defineTable {assignments : Assignments} (h : Unambiguous entries)
    (hvalues : ∀ a ∈ assignments, a.2.Unambiguous)
    (hsome : entries.defineTable key assignments = some entries') : Unambiguous entries' := by
  have hdefined {held : Nodes} (hheld : Unambiguous held)
      (hsome : (held.assignAll assignments).bind (fun inner =>
        some (entries.remove key ++ [(key, .table .defined inner)])) = some entries') :
      Unambiguous entries' := by
    obtain ⟨inner, hinner, hsome⟩ := Option.bind_eq_some_iff.mp hsome
    cases hsome
    exact h.remove_concat (unambiguous_table_iff.mpr (hheld.assignAll hvalues hinner))
  unfold Nodes.defineTable at hsome
  split at hsome
  · exact hdefined unambiguous_nil hsome
  · rename_i hfound
    exact hdefined (unambiguous_table_iff.mp (h.lookup hfound)) hsome
  · cases hsome

/-- A header that adds to an array of tables keeps the keys apart. -/
theorem Unambiguous.addElement {assignments : Assignments} (h : Unambiguous entries)
    (hvalues : ∀ a ∈ assignments, a.2.Unambiguous)
    (hsome : entries.addElement key assignments = some entries') : Unambiguous entries' := by
  obtain ⟨element, hmade, hsome⟩ := Option.bind_eq_some_iff.mp hsome
  -- the element is made from nothing, so its keys are apart whatever the array holds
  have helement := unambiguous_nil.assignAll hvalues hmade
  split at hsome
  · rename_i hmissing
    cases hsome
    refine h.concat (lookup_eq_none_iff_not_mem.mp hmissing) (unambiguous_elements_iff.mpr ?_)
    rw [List.forall_mem_singleton]
    exact helement
  · rename_i tables hfound
    cases hsome
    have htables := unambiguous_elements_iff.mp (h.lookup hfound)
    refine h.replace (unambiguous_elements_iff.mpr ?_)
    rw [List.forall_mem_append, List.forall_mem_singleton]
    exact ⟨htables, helement⟩
  · cases hsome

end Nodes

/-! ## What the tables become -/

/-- The entries of a table, as they are when the document has been read. -/
theorem Nodes.toEntries_eq_map (entries : Nodes) :
    entries.toEntries = entries.map fun e => (e.1, e.2.toValue) := by
  induction entries with
  | nil => rfl
  | cons e rest ih => rw [Nodes.toEntries, ih, List.map_cons]

theorem Nodes.toTables_eq_map (tables : List Nodes) :
    Nodes.toTables tables = tables.map fun table => .table table.toEntries := by
  induction tables with
  | nil => rfl
  | cons table rest ih => rw [Nodes.toTables, ih, List.map_cons]

theorem Nodes.keysApart_toEntries {entries : Nodes} (h : KeysApart entries) :
    KeysApart entries.toEntries := by
  rw [Nodes.toEntries_eq_map, KeysApart, List.map_map]
  exact h

/-- **What has no key twice while it is read** has none afterwards. -/
theorem Node.Unambiguous.toValue {node : Node} (h : node.Unambiguous) :
    node.toValue.Unambiguous := by
  have htable {entries : Nodes} (apart : KeysApart entries)
      (inner : ∀ e ∈ entries, e.2.toValue.Unambiguous) :
      (Value.table entries.toEntries).Unambiguous := by
    refine .table (Nodes.keysApart_toEntries apart) ?_
    rw [Nodes.toEntries_eq_map, List.forall_mem_map]
    exact inner
  -- induction on how the node is built; arrays of tables are tables once more
  induction h with
  | value h => exact h
  | table origin apart _ ih => exact htable apart ih
  | elements apart _ ih =>
    rw [Node.toValue, Nodes.toTables_eq_map]
    refine .array ?_
    rw [List.forall_mem_map]
    exact fun table hmem => htable (apart table hmem) (ih table hmem)

theorem Nodes.Unambiguous.toValue {entries : Nodes} (h : entries.Unambiguous) :
    (Value.table entries.toEntries).Unambiguous :=
  (unambiguous_table_iff.mpr h : (Node.table .defined entries).Unambiguous).toValue

end PulseTrain.Toml
