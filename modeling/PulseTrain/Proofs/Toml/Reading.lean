import PulseTrain.Proofs.Toml.Keys
import PulseTrain.Toml.Document

/-!
# Documents that are read

Whatever the readers read, no table in it has a key twice: neither in a value, where tables on one
line are nested in each other and in arrays, nor in what the statements of a document make up.

* **`readValue_unambiguous`**: the values.
* **`Nodes.Unambiguous.addSection`**: a header with what is under it.
* **`Document.read_unambiguous`**: the documents.
-/

namespace PulseTrain.Toml

/-! ## Values -/

/-- Whatever the reader reads has no key twice in a table. -/
def ReadsUnambiguous (item : Reader Value) : Prop :=
  ∀ {s value rest}, item s = some (value, rest) → value.Unambiguous

theorem unambiguous_of_integer64? {n : Int} {value : Value} (h : integer64? n = some value) :
    value.Unambiguous := by
  unfold integer64? at h
  split at h <;> cases h
  exact .integer n

theorem unambiguous_of_double? {negative : Bool} {coefficient : Nat} {exponent : Int} {value : Value}
    (h : double? negative coefficient exponent = some value) : value.Unambiguous := by
  unfold double? at h
  dsimp only at h
  split at h
  · cases h
    exact .float _
  · split at h <;> cases h
    exact .float _

theorem readBased_unambiguous (base : Nat) : ReadsUnambiguous (readBased base) := by
  intro s value rest h
  obtain ⟨digits, -, h⟩ := Option.bind_eq_some_iff.mp h
  obtain ⟨number, hnumber, h⟩ := Option.bind_eq_some_iff.mp h
  cases h
  exact unambiguous_of_integer64? hnumber

/-- A number is an integer or a decimal, and neither has keys. -/
theorem readDecimal_unambiguous (negative : Bool) : ReadsUnambiguous (readDecimal negative) := by
  intro s value rest h
  obtain ⟨whole, -, h⟩ := Option.bind_eq_some_iff.mp h
  obtain ⟨fraction, -, h⟩ := Option.bind_eq_some_iff.mp h
  obtain ⟨exponent, -, h⟩ := Option.bind_eq_some_iff.mp h
  dsimp only at h
  split at h
  · obtain ⟨number, hnumber, h⟩ := Option.bind_eq_some_iff.mp h
    cases h
    exact unambiguous_of_integer64? hnumber
  · obtain ⟨number, hnumber, h⟩ := Option.bind_eq_some_iff.mp h
    cases h
    exact unambiguous_of_double? hnumber

theorem readNumber_unambiguous : ReadsUnambiguous readNumber := by
  intro s value rest h
  unfold readNumber at h
  split at h
  · exact readBased_unambiguous 16 h
  · exact readBased_unambiguous 8 h
  · exact readBased_unambiguous 2 h
  · split at h
    · cases h
      exact .float _
    · cases h
      exact .float _
    · exact readDecimal_unambiguous _ h

/-- What is no array and no table has no keys. -/
theorem readScalar_unambiguous : ReadsUnambiguous readScalar := by
  intro s value rest h
  -- strings of both kinds, the two booleans, dates and numbers
  unfold readScalar at h
  split at h
  · obtain ⟨read, -, h⟩ := Option.map_eq_some_iff.mp h
    cases h
    exact .string _
  · obtain ⟨read, -, h⟩ := Option.map_eq_some_iff.mp h
    cases h
    exact .string _
  · cases h
    exact .boolean _
  · cases h
    exact .boolean _
  · split at h
    · cases h
      exact .datetime _
    · exact readNumber_unambiguous h

/-- The items of an array, by induction on how many of them there may be. -/
theorem readItems_unambiguous {item : Reader Value} (hitem : ReadsUnambiguous item) {limit : Nat}
    {s rest : List Char} {items : List Value} (h : readItems item limit s = some (items, rest)) :
    ∀ v ∈ items, v.Unambiguous := by
  induction limit generalizing s rest items with
  | zero => cases h
  | succ limit ih =>
    unfold readItems at h
    split at h
    · cases h
      nofun
    · obtain ⟨first, hfirst, h⟩ := Option.bind_eq_some_iff.mp h
      -- after an item comes a comma with more items, or the end of the array
      dsimp only at h
      split at h
      · obtain ⟨others, hothers, h⟩ := Option.bind_eq_some_iff.mp h
        cases h
        exact List.forall_mem_cons.mpr ⟨hitem hfirst, ih hothers⟩
      · cases h
        exact List.forall_mem_singleton.mpr (hitem hfirst)
      · cases h

theorem readAssignment_unambiguous {item : Reader Value} (hitem : ReadsUnambiguous item)
    {s rest : List Char} {path : List String} {value : Value}
    (h : readAssignment item s = some ((path, value), rest)) : value.Unambiguous := by
  obtain ⟨key, -, h⟩ := Option.bind_eq_some_iff.mp h
  obtain ⟨equals, -, h⟩ := Option.bind_eq_some_iff.mp h
  obtain ⟨read, hread, h⟩ := Option.bind_eq_some_iff.mp h
  cases h
  exact hitem hread

/-- The members of an inline table, by induction on how many of them there may be. -/
theorem readMembers_unambiguous {item : Reader Value} (hitem : ReadsUnambiguous item) {limit : Nat}
    {s rest : List Char} {members : Nodes.Assignments}
    (h : readMembers item limit s = some (members, rest)) : ∀ m ∈ members, m.2.Unambiguous := by
  induction limit generalizing s rest members with
  | zero => cases h
  | succ limit ih =>
    obtain ⟨first, hfirst, h⟩ := Option.bind_eq_some_iff.mp h
    have hvalue := readAssignment_unambiguous hitem hfirst
    dsimp only at h
    split at h
    · obtain ⟨others, hothers, h⟩ := Option.bind_eq_some_iff.mp h
      cases h
      exact List.forall_mem_cons.mpr ⟨hvalue, ih hothers⟩
    · cases h
      exact List.forall_mem_singleton.mpr hvalue
    · cases h

/-- An inline table is put together like any other, so a key that comes twice is refused. -/
theorem readInline_unambiguous {item : Reader Value} (hitem : ReadsUnambiguous item) :
    ReadsUnambiguous (readInline item) := by
  intro s value rest h
  unfold readInline at h
  split at h
  · cases h
    exact Nodes.unambiguous_nil.toValue
  · obtain ⟨members, hmembers, h⟩ := Option.bind_eq_some_iff.mp h
    obtain ⟨entries, hentries, h⟩ := Option.bind_eq_some_iff.mp h
    cases h
    exact (Nodes.unambiguous_nil.assignAll (readMembers_unambiguous hitem hmembers) hentries).toValue

/-- **No value that is read has a key twice**, by induction on how deep it may be nested. -/
theorem readValue_unambiguous (depth : Nat) : ReadsUnambiguous (readValue depth) := by
  induction depth with
  | zero => exact readScalar_unambiguous
  | succ depth ih =>
    intro s value rest h
    unfold readValue at h
    split at h
    · obtain ⟨items, hitems, h⟩ := Option.bind_eq_some_iff.mp h
      cases h
      exact .array (readItems_unambiguous ih hitems)
    · exact readInline_unambiguous ih h
    · exact readScalar_unambiguous h

/-! ## Statements -/

/-- The values that a statement sets have no key twice in a table. -/
def Statement.Unambiguous : Statement → Prop
  | .assignment _ value => value.Unambiguous
  | .header _ => True

/-- A statement gives no value with a key twice. -/
theorem Statement.read_unambiguous {s rest : List Char} {statement : Statement}
    (h : Statement.read s = some (statement, rest)) : statement.Unambiguous := by
  -- headers of either kind carry no value
  unfold Statement.read at h
  split at h
  · obtain ⟨path, -, h⟩ := Option.bind_eq_some_iff.mp h
    obtain ⟨closed, -, h⟩ := Option.bind_eq_some_iff.mp h
    obtain ⟨closed', -, h⟩ := Option.bind_eq_some_iff.mp h
    cases h
    trivial
  · obtain ⟨path, -, h⟩ := Option.bind_eq_some_iff.mp h
    obtain ⟨closed, -, h⟩ := Option.bind_eq_some_iff.mp h
    cases h
    trivial
  · obtain ⟨read, hread, h⟩ := Option.map_eq_some_iff.mp h
    cases h
    exact readAssignment_unambiguous (readValue_unambiguous _) hread

theorem readStatements_unambiguous {limit : Nat} {s : List Char} {statements : List Statement}
    (h : readStatements limit s = some statements) : ∀ st ∈ statements, st.Unambiguous := by
  -- induction on how many statements there may be; blank lines count as well
  induction limit generalizing s statements with
  | zero =>
    unfold readStatements at h
    split at h <;> cases h
    nofun
  | succ limit ih =>
    unfold readStatements at h
    split at h
    · cases h
      nofun
    · exact ih h
    · obtain ⟨read, hread, h⟩ := Option.bind_eq_some_iff.mp h
      obtain ⟨line, -, h⟩ := Option.bind_eq_some_iff.mp h
      obtain ⟨others, hothers, h⟩ := Option.bind_eq_some_iff.mp h
      cases h
      exact List.forall_mem_cons.mpr ⟨Statement.read_unambiguous hread, ih hothers⟩

/-! ## Documents -/

/-- What the sections of a document set has no key twice in a table. -/
theorem sections_unambiguous {statements : List Statement} (h : ∀ st ∈ statements, st.Unambiguous) :
    (∀ a ∈ (sections statements).1, a.2.Unambiguous) ∧
      ∀ part ∈ (sections statements).2, ∀ a ∈ part.assignments, a.2.Unambiguous := by
  induction statements with
  | nil => exact ⟨nofun, nofun⟩
  | cons statement rest ih =>
    rw [List.forall_mem_cons] at h
    obtain ⟨hfront, hparts⟩ := ih h.2
    cases statement with
    | assignment path value => exact ⟨List.forall_mem_cons.mpr ⟨h.1, hfront⟩, hparts⟩
    | header header => exact ⟨nofun, List.forall_mem_cons.mpr ⟨hfront, hparts⟩⟩

/-- A section of a document keeps the keys apart, whatever its header is. -/
theorem Nodes.Unambiguous.addSection {entries entries' : Nodes} {added : Section}
    (h : entries.Unambiguous) (hvalues : ∀ a ∈ added.assignments, a.2.Unambiguous)
    (hsome : entries.addSection added = some entries') : entries'.Unambiguous := by
  unfold Nodes.addSection Nodes.changeParent at hsome
  split at hsome <;> split at hsome
  · exact h.changeAt (fun held hchanged => held.defineTable hvalues hchanged) hsome
  · cases hsome
  · exact h.changeAt (fun held hchanged => held.addElement hvalues hchanged) hsome
  · cases hsome

/-- The sections of a document keep the keys apart, one after the other. -/
theorem Nodes.Unambiguous.addSections {parts : List Section} {entries entries' : Nodes}
    (h : entries.Unambiguous) (hvalues : ∀ part ∈ parts, ∀ a ∈ part.assignments, a.2.Unambiguous)
    (hsome : parts.foldlM Nodes.addSection entries = some entries') : entries'.Unambiguous := by
  -- induction on the sections, each of which finds the tables of those before
  induction parts generalizing entries with
  | nil =>
    cases hsome
    exact h
  | cons part rest ih =>
    rw [List.forall_mem_cons] at hvalues
    obtain ⟨added, hadded, hrest⟩ := Option.bind_eq_some_iff.mp hsome
    exact ih (h.addSection hvalues.1 hadded) hvalues.2 hrest

theorem Document.ofStatements_unambiguous {statements : List Statement} {entries : Entries}
    (hvalues : ∀ st ∈ statements, st.Unambiguous)
    (h : Document.ofStatements statements = some entries) : (Value.table entries).Unambiguous := by
  obtain ⟨hfront, hparts⟩ := sections_unambiguous hvalues
  obtain ⟨root, hroot, h⟩ := Option.bind_eq_some_iff.mp h
  obtain ⟨whole, hwhole, h⟩ := Option.bind_eq_some_iff.mp h
  cases h
  exact ((Nodes.unambiguous_nil.assignAll hfront hroot).addSections hparts hwhole).toValue

/-- **No document that is read has a key twice in a table.** -/
theorem Document.read_unambiguous {text : String} {entries : Entries}
    (h : Document.read text = some entries) : (Value.table entries).Unambiguous := by
  obtain ⟨statements, hstatements, h⟩ := Option.bind_eq_some_iff.mp h
  exact Document.ofStatements_unambiguous (readStatements_unambiguous hstatements) h

end PulseTrain.Toml
