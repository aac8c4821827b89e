import PulseTrain.Proofs.Toml.Keys
import PulseTrain.Settings.Document

/-!
# Records of a document

A record is set entry by entry, in document order, and stops at the first entry that does not fit.
If it comes to the end, and no key stands twice in the table, the order has left no trace: each part
of the record is what stands under its key, or the default where nothing does. So a table may be
changed wherever its record does not look.

* **`Gives`**: what a table gives for a field.
* **`ReadBy`**: which part of a record each of its fields sets.
* **`ReadBy.foldlM_iff`**: the record that a table is read as, part by part.
* **`TableEdit`**: changes that the record does not see; **`TableEdit.foldlM_eq_ok`**: it does not.
-/

namespace PulseTrain

open Toml (Value Entries KeysApart)

/-- Two computations one after the other give a result exactly if both do. -/
theorem bind_eq_ok_iff {ε α β : Type} {x : Except ε α} {f : α → Except ε β} {b : β} :
    x >>= f = .ok b ↔ ∃ a, x = .ok a ∧ f a = .ok b := by
  cases x with
  | error e => exact ⟨nofun, nofun⟩
  | ok a => exact ⟨fun h => ⟨a, rfl, h⟩, by rintro ⟨_, ⟨⟩, h⟩; exact h⟩

theorem map_eq_ok_iff {ε α β : Type} {x : Except ε α} {f : α → β} {b : β} :
    x.map f = .ok b ↔ ∃ a, x = .ok a ∧ f a = b := by
  cases x with
  | error e => exact ⟨nofun, nofun⟩
  | ok a => exact ⟨fun h => ⟨a, rfl, Except.ok.inj h⟩, by rintro ⟨_, ⟨⟩, rfl⟩; rfl⟩

theorem mapError_eq_ok_iff {ε ε' α : Type} {x : Except ε α} {f : ε → ε'} {a : α} :
    x.mapError f = .ok a ↔ x = .ok a := by
  cases x with
  | error e => exact ⟨nofun, nofun⟩
  | ok a' => exact ⟨fun h => by cases h; rfl, fun h => by cases h; rfl⟩

/-- An entry may stand in the place of one that was taken, if it is taken the same way. -/
theorem foldlM_replaced_of_step {ε α β : Type} {step : β → α → Except ε β} {e e' : α}
    (hstep : ∀ b b', step b e = .ok b' → step b e' = .ok b') {before after : List α} {b b' : β}
    (hrun : (before ++ e :: after).foldlM step b = .ok b') :
    (before ++ e' :: after).foldlM step b = .ok b' := by
  rw [List.foldlM_append, bind_eq_ok_iff] at hrun ⊢
  obtain ⟨reached, hbefore, hrun⟩ := hrun
  rw [List.foldlM_cons, bind_eq_ok_iff] at hrun
  obtain ⟨taken, htaken, hafter⟩ := hrun
  refine ⟨reached, hbefore, ?_⟩
  rw [List.foldlM_cons, hstep reached taken htaken]
  exact hafter

/-! ## What a table gives -/

section Gives

variable {β : Type} {entries : Entries} {key : String} {decode : Value → Except Mismatch β}
  {default found : β}

/-- What the table gives for a field: the value that stands under its key, and the default if there
is none. -/
def Gives (entries : Entries) (key : String) (decode : Value → Except Mismatch β)
    (default found : β) : Prop :=
  match entries.lookup key with
  | some value => decode value = .ok found
  | none => found = default

theorem gives_of_found {value : Value} (h : entries.lookup key = some value) :
    Gives entries key decode default found ↔ decode value = .ok found := by
  rw [Gives, h]

theorem gives_of_missing (h : entries.lookup key = none) :
    Gives entries key decode default found ↔ found = default := by
  rw [Gives, h]

/-- What a table gives depends only on what is found under the key. -/
theorem gives_of_lookup_eq {entries' : Entries} (h : entries.lookup key = entries'.lookup key) :
    Gives entries key decode default found ↔ Gives entries' key decode default found := by
  rw [Gives, Gives, h]

end Gives

/-! ## Records part by part -/

/-- One part of a record: the key it is set by, how a value is read for it, and its place. -/
structure Column (α : Type) where
  key : String
  Part : Type
  decode : Value → Except Mismatch Part
  part : α → Part
  put : α → Part → α

/-- Each field of the record sets one part of it, and the record is made of these parts. -/
structure ReadBy {α : Type} (fields : List (Field α)) (columns : List (Column α)) : Prop where
  keys : fields.map Field.key = columns.map Column.key
  set : ∀ c ∈ columns, ∀ record value,
    setField fields record (c.key, value) = (c.decode value).map (c.put record)
  part_put : ∀ c ∈ columns, ∀ record x, c.part (c.put record x) = x
  part_put_of_ne : ∀ c ∈ columns, ∀ c' ∈ columns, c'.key ≠ c.key →
    ∀ record x, c'.part (c.put record x) = c'.part record
  ext : ∀ record record', (∀ c ∈ columns, c.part record = c.part record') → record = record'

section Record

variable {α : Type} {fields : List (Field α)} {columns : List (Column α)} {record record' : α}
  {key : String} {value : Value}

/-- An unknown key is passed over. -/
theorem setField_of_unknown (h : key ∉ fields.map Field.key) :
    setField fields record (key, value) = .ok record := by
  have hnone : fields.find? (·.key == key) = none := by
    rw [List.find?_eq_none]
    intro field hfield hkey
    exact h (beq_iff_eq.mp hkey ▸ List.mem_map_of_mem hfield)
  unfold setField
  rw [hnone]

namespace ReadBy

/-- **What one entry does**: it sets the part of its key, and no other. -/
theorem setField_eq_ok (h : ReadBy fields columns) {c : Column α} (hc : c ∈ columns)
    (hset : setField fields record (key, value) = .ok record') :
    (c.key = key → c.decode value = .ok (c.part record')) ∧
      (c.key ≠ key → c.part record' = c.part record) := by
  constructor
  · rintro rfl
    rw [h.set c hc, map_eq_ok_iff] at hset
    obtain ⟨x, hdecode, rfl⟩ := hset
    rw [h.part_put c hc]
    exact hdecode
  · intro hne
    -- the entry is for another part, or for none
    by_cases hknown : ∃ c' ∈ columns, c'.key = key
    · obtain ⟨c', hc', rfl⟩ := hknown
      rw [h.set c' hc', map_eq_ok_iff] at hset
      obtain ⟨x, -, rfl⟩ := hset
      exact h.part_put_of_ne c' hc' c hc hne record x
    · rw [setField_of_unknown] at hset
      · cases hset
        rfl
      · rw [h.keys, List.mem_map]
        exact hknown

/-- An entry is taken whose value can be read for the part of its key. -/
theorem exists_setField (h : ReadBy fields columns)
    (hfits : ∀ c ∈ columns, c.key = key → ∃ x, c.decode value = .ok x) :
    ∃ next, setField fields record (key, value) = .ok next := by
  by_cases hknown : ∃ c ∈ columns, c.key = key
  · obtain ⟨c, hc, rfl⟩ := hknown
    obtain ⟨x, hdecode⟩ := hfits c hc rfl
    refine ⟨c.put record x, ?_⟩
    rw [h.set c hc, hdecode]
    rfl
  · refine ⟨record, setField_of_unknown ?_⟩
    rw [h.keys, List.mem_map]
    exact hknown

/-- What a table gives to a record is what its rest gives to the record with the first entry set. -/
theorem gives_cons_iff (h : ReadBy fields columns) {next : α} {rest : Entries}
    (hnew : key ∉ rest.map Prod.fst) (hset : setField fields record (key, value) = .ok next)
    {c : Column α} (hc : c ∈ columns) :
    Gives ((key, value) :: rest) c.key c.decode (c.part record) (c.part record') ↔
      Gives rest c.key c.decode (c.part next) (c.part record') := by
  obtain ⟨hown, hother⟩ := h.setField_eq_ok hc hset
  by_cases hkey : c.key = key
  · rw [← hkey] at hnew ⊢
    rw [gives_of_found List.lookup_cons_self,
      gives_of_missing (Toml.lookup_eq_none_iff_not_mem.mpr hnew), hown hkey]
    exact ⟨fun heq => (Except.ok.inj heq).symm, fun heq => by rw [heq]⟩
  · have hlookup : ((key, value) :: rest).lookup c.key = rest.lookup c.key := by
      rw [List.lookup_cons, beq_eq_false_iff_ne.mpr hkey]
    rw [gives_of_lookup_eq hlookup, hother hkey]

/-- **A record is what its table gives**, part by part, wherever no key stands twice. -/
theorem foldlM_iff (h : ReadBy fields columns) {entries : Entries} (hkeys : KeysApart entries) :
    entries.foldlM (setField fields) record = .ok record' ↔
      ∀ c ∈ columns, Gives entries c.key c.decode (c.part record) (c.part record') := by
  -- induction on the entries; a first entry whose key stands nowhere else decides its part alone
  induction entries generalizing record with
  | nil =>
    constructor
    · intro hrun c _
      cases hrun
      rfl
    · intro hgives
      rw [h.ext record record' fun c hc => (hgives c hc).symm]
      rfl
  | cons e rest ih =>
    obtain ⟨hnew, hrest⟩ := List.nodup_cons.mp hkeys
    rw [List.foldlM_cons, bind_eq_ok_iff]
    constructor
    · rintro ⟨next, hset, hrun⟩ c hc
      rw [h.gives_cons_iff hnew hset hc]
      exact (ih hrest).mp hrun c hc
    · intro hgives
      obtain ⟨next, hset⟩ : ∃ next, setField fields record e = .ok next := by
        refine h.exists_setField fun c hc hkey => ⟨c.part record', ?_⟩
        have hfound : (e :: rest).lookup c.key = some e.2 := by
          rw [hkey]
          exact List.lookup_cons_self
        exact (gives_of_found hfound).mp (hgives c hc)
      refine ⟨next, hset, (ih hrest).mpr fun c hc => ?_⟩
      exact (h.gives_cons_iff hnew hset hc).mp (hgives c hc)

/-- A value may stand in the place of one that was read, if it is read as the same. -/
theorem foldlM_replaced (h : ReadBy fields columns) {c : Column α} (hc : c ∈ columns)
    {value' : Value} (hsame : ∀ x, c.decode value = .ok x → c.decode value' = .ok x)
    {before after : Entries}
    (hrun : (before ++ (c.key, value) :: after).foldlM (setField fields) record = .ok record') :
    (before ++ (c.key, value') :: after).foldlM (setField fields) record = .ok record' := by
  refine foldlM_replaced_of_step (fun given set hset => ?_) hrun
  rw [h.set c hc, map_eq_ok_iff] at hset ⊢
  obtain ⟨x, hdecode, rfl⟩ := hset
  exact ⟨x, hsame x hdecode, rfl⟩

end ReadBy

/-! ## Changes that a record does not see -/

/-- A change of a table: its entries are put in another order, an entry is added anywhere whose key
is new and not one of the record, or an entry is left out that only says the default. -/
inductive TableEdit (fields : List (Field α)) (default : α) : Entries → Entries → Prop
  | permute {entries entries' : Entries} (hperm : entries.Perm entries') :
    TableEdit fields default entries entries'
  | insert (before after : Entries) {key : String} (value : Value)
    (hunknown : key ∉ fields.map Field.key) (hnew : key ∉ (before ++ after).map Prod.fst) :
    TableEdit fields default (before ++ after) (before ++ (key, value) :: after)
  | delete (before after : Entries) {key : String} {value : Value}
    (hdefault : setField fields default (key, value) = .ok default) :
    TableEdit fields default (before ++ (key, value) :: after) (before ++ after)

namespace TableEdit

variable {default : α} {entries entries' : Entries}

/-- A change gives no key twice. -/
theorem keysApart (h : TableEdit fields default entries entries') (hkeys : KeysApart entries) :
    KeysApart entries' := by
  cases h with
  | permute hperm => exact hkeys.perm hperm
  | insert before after value hunknown hnew => exact Toml.keysApart_middle.mpr ⟨hnew, hkeys⟩
  | delete before after hdefault => exact (Toml.keysApart_middle.mp hkeys).2

/-- A change takes away no part that the table gives. -/
theorem gives (h : TableEdit fields default entries entries') (hread : ReadBy fields columns)
    (hkeys : KeysApart entries) {c : Column α} (hc : c ∈ columns) {found : c.Part}
    (hgives : Gives entries c.key c.decode (c.part default) found) :
    Gives entries' c.key c.decode (c.part default) found := by
  cases h with
  | permute hperm => rwa [← gives_of_lookup_eq (hkeys.lookup_eq_of_perm hperm)]
  | @insert before after key value hunknown hnew =>
    have hne : c.key ≠ key := by
      rintro rfl
      rw [hread.keys] at hunknown
      exact hunknown (List.mem_map_of_mem hc)
    rwa [gives_of_lookup_eq (Toml.lookup_middle_of_ne hne)]
  | @delete before after key value hdefault =>
    by_cases hkey : c.key = key
    · -- the entry gives the default, which is also what comes of a field that is missing
      have hsays := (hread.setField_eq_ok hc hdefault).1 hkey
      subst hkey
      obtain ⟨hmissing, -⟩ := Toml.keysApart_middle.mp hkeys
      rw [gives_of_found hkeys.lookup_middle, hsays] at hgives
      rw [gives_of_missing (Toml.lookup_eq_none_iff_not_mem.mpr hmissing)]
      exact (Except.ok.inj hgives).symm
    · rwa [← gives_of_lookup_eq (Toml.lookup_middle_of_ne hkey)]

/-- **The record does not see the change.** -/
theorem foldlM_eq_ok (h : TableEdit fields default entries entries')
    (hread : ReadBy fields columns) (hkeys : KeysApart entries)
    (hrun : entries.foldlM (setField fields) default = .ok record) :
    entries'.foldlM (setField fields) default = .ok record := by
  rw [hread.foldlM_iff (h.keysApart hkeys)]
  rw [hread.foldlM_iff hkeys] at hrun
  exact fun c hc => h.gives hread hkeys hc (hrun c hc)

/-- The record that is read stays the same. -/
theorem decodeRecord_eq_ok (h : TableEdit fields default entries entries')
    (hread : ReadBy fields columns) (hkeys : KeysApart entries) {expected : Expected}
    (hrun : decodeRecord fields default expected (.table entries) = .ok record) :
    decodeRecord fields default expected (.table entries') = .ok record :=
  h.foldlM_eq_ok hread hkeys hrun

/-- What stands under a key of the record stood there before the change. -/
theorem mem_of_known (h : TableEdit fields default entries entries')
    (hknown : key ∈ fields.map Field.key) (hmem : (key, value) ∈ entries') :
    (key, value) ∈ entries := by
  cases h with
  | permute hperm => exact hperm.mem_iff.mpr hmem
  | insert before after added hunknown hnew =>
    rcases List.mem_cons.mp (List.perm_middle.mem_iff.mp hmem) with hsame | hmem
    · cases hsame
      exact absurd hknown hunknown
    · exact hmem
  | delete before after hdefault =>
    exact List.perm_middle.mem_iff.mpr (List.mem_cons_of_mem _ hmem)

end TableEdit

end Record

/-! ## The records of settings -/

def Timing.columns : List (Column Timing) := [
  ⟨"frequency_hz", Float32, decodeNumber, (·.tickRate.value), fun t x => { t with tickRate := ⟨x⟩ }⟩,
  ⟨"unstep_time_us", Float32, decodeNumber, (·.pulseWidth.value),
    fun t x => { t with pulseWidth := ⟨x⟩ }⟩,
  ⟨"timer_clock_hz", Float32, decodeNumber, (·.timerClock.value),
    fun t x => { t with timerClock := ⟨x⟩ }⟩]

def Polarity.columns : List (Column Polarity) := [
  ⟨"invert_direction", Bool, decodeBoolean, (·.invertedDirection),
    fun p x => { p with invertedDirection := x }⟩,
  ⟨"invert_step", Bool, decodeBoolean, (·.invertedStep), fun p x => { p with invertedStep := x }⟩]

def Settings.columns : List (Column Settings) := [
  ⟨"ticker", Timing, decodeTiming, (·.timing), fun s x => { s with timing := x }⟩,
  ⟨"motors", List (String × Polarity), decodeMotors, (·.motors),
    fun s x => { s with motors := x }⟩]

/-- The timing is read field by field. -/
theorem readBy_timing : ReadBy Timing.fields Timing.columns where
  keys := rfl
  set := by
    simp only [Timing.columns, List.forall_mem_cons]
    refine ⟨fun t v => ?_, fun t v => ?_, fun t v => ?_, nofun⟩ <;> cases h : decodeNumber v <;>
      simp [setField, Timing.fields, h] <;> rfl
  part_put := by simp [Timing.columns]
  part_put_of_ne := by simp [Timing.columns]
  ext := by
    rintro ⟨⟨rate⟩, ⟨width⟩, ⟨clock⟩⟩ ⟨⟨rate'⟩, ⟨width'⟩, ⟨clock'⟩⟩ h
    simp only [Timing.columns, List.forall_mem_cons] at h
    obtain ⟨rfl, rfl, rfl, -⟩ := h
    rfl

/-- The polarity of a motor is read field by field. -/
theorem readBy_polarity : ReadBy Polarity.fields Polarity.columns where
  keys := rfl
  set := by
    simp only [Polarity.columns, List.forall_mem_cons]
    refine ⟨fun p v => ?_, fun p v => ?_, nofun⟩ <;> cases h : decodeBoolean v <;>
      simp [setField, Polarity.fields, h] <;> rfl
  part_put := by simp [Polarity.columns]
  part_put_of_ne := by simp [Polarity.columns]
  ext := by
    rintro ⟨direction, step⟩ ⟨direction', step'⟩ h
    simp only [Polarity.columns, List.forall_mem_cons] at h
    obtain ⟨rfl, rfl, -⟩ := h
    rfl

/-- The settings are read part by part. -/
theorem readBy_settings : ReadBy Settings.fields Settings.columns where
  keys := rfl
  set := by
    simp only [Settings.columns, List.forall_mem_cons]
    refine ⟨fun s v => ?_, fun s v => ?_, nofun⟩
    · cases h : decodeTiming v <;> simp [setField, Settings.fields, h] <;> rfl
    · cases h : decodeMotors v <;> simp [setField, Settings.fields, h] <;> rfl
  part_put := by simp [Settings.columns]
  part_put_of_ne := by simp [Settings.columns]
  ext := by
    rintro ⟨timing, motors⟩ ⟨timing', motors'⟩ h
    simp only [Settings.columns, List.forall_mem_cons] at h
    obtain ⟨rfl, rfl, -⟩ := h
    rfl

end PulseTrain
