import ImageMacros.Proofs.MacroFile.Repeated
import ImageMacros.Proofs.Storage.Apart

/-!
# Independent macro files

* `Call` : a macro file that is asked for;
* `Call.Independent` : two of them with different places, neither above the other;
* `report_stage_after`, `storage_stage_comm` : what the one tells and leaves does not depend on the other;
* `stage_commutes` : they can be staged in either order.
-/

namespace ImageMacros.MacroFile

open Storage

structure Call where
  root : String
  name : String
  definitions : Definitions
  comments : List String

namespace Call

def place (c : Call) : Path := Path.under c.root c.name

def stage (c : Call) (s : Storage) : Outcome (Option Path) :=
  MacroFile.stage s c.root c.name c.definitions c.comments

/-- Two places with one anchor, neither above the other, without double dots and null characters. -/
structure Independent (c d : Call) : Prop where
  plain : ".." ∉ c.place.names ∧ ".." ∉ d.place.names
  noNull : c.place.hasNull = false ∧ d.place.hasNull = false
  anchor : d.place.anchor = c.place.anchor
  different : c.place ≠ d.place
  apart : ¬ c.place.AncestorOf d.place ∧ ¬ d.place.AncestorOf c.place

instance (c d : Call) : Decidable (Independent c d) :=
  decidable_of_iff ((".." ∉ c.place.names ∧ ".." ∉ d.place.names) ∧
      (c.place.hasNull = false ∧ d.place.hasNull = false) ∧ d.place.anchor = c.place.anchor ∧ c.place ≠ d.place ∧
      ¬ c.place.AncestorOf d.place ∧ ¬ d.place.AncestorOf c.place)
    ⟨fun h => ⟨h.1, h.2.1, h.2.2.1, h.2.2.2.1, h.2.2.2.2⟩,
      fun h => ⟨h.plain, h.noNull, h.anchor, h.different, h.apart⟩⟩

variable {s : Storage} {c d : Call}

theorem Independent.symm (h : Independent c d) : Independent d c :=
  ⟨h.plain.symm, h.noNull.symm, h.anchor.symm, h.different.symm, h.apart.symm⟩

theorem Independent.not_prefix (h : Independent c d) : ¬ c.place.names <+: d.place.names := fun hfirst =>
  (Path.eq_or_ancestorOf h.anchor.symm hfirst).elim h.different h.apart.1

theorem stage_of_isEmpty (h : c.definitions.isEmpty = true) (s : Storage) : (c.stage s).storage = s := by
  rw [stage, MacroFile.stage_of_isEmpty _ _ _ _ h]

theorem storage_stage (h : c.definitions.isEmpty = false) (s : Storage) :
    (c.stage s).storage = (s.writeLines c.place (render c.definitions c.comments)).storage :=
  storage_stage_of_ne s c.root c.name c.comments h

theorem report_stage (h : c.definitions.isEmpty = false) (s : Storage) :
    (c.stage s).report =
      (s.writeLines c.place (render c.definitions c.comments)).report.map fun _ => some c.place :=
  MacroFile.report_stage s c.root c.name c.comments h

theorem Independent.report_stage_after (h : Independent c d) (s : Storage) :
    (d.stage (c.stage s).storage).report = (d.stage s).report := by
  cases hd : d.definitions.isEmpty with
  | true => simp [stage, MacroFile.stage, hd, Outcome.report]
  | false =>
    cases hc : c.definitions.isEmpty with
    | true => rw [stage_of_isEmpty hc]
    | false =>
      rw [report_stage hd, report_stage hd, storage_stage hc,
        report_writeLines_after h.plain.1 h.plain.2 h.noNull.1 h.noNull.2 h.anchor h.not_prefix h.symm.not_prefix]

theorem Independent.storage_stage_comm (h : Independent c d) (s : Storage) :
    (d.stage (c.stage s).storage).storage = (c.stage (d.stage s).storage).storage := by
  cases hc : c.definitions.isEmpty with
  | true => rw [stage_of_isEmpty hc, stage_of_isEmpty hc]
  | false =>
    cases hd : d.definitions.isEmpty with
    | true => rw [stage_of_isEmpty hd, stage_of_isEmpty hd]
    | false =>
      rw [storage_stage hd, storage_stage hc, storage_stage hc, storage_stage hd,
        writeLines_comm h.plain.1 h.plain.2 h.noNull.1 h.noNull.2 h.anchor h.not_prefix h.symm.not_prefix]

end Call

/-- Independent macro files give the same storage in either order, and each tells the same. -/
theorem stage_commutes (s : Storage) (c d : Call) (h : c.Independent d) :
    let first := c.stage s
    let other := d.stage s
    (d.stage first.storage).storage = (c.stage other.storage).storage ∧
      (d.stage first.storage).Echoes other ∧ (c.stage other.storage).Echoes first := by
  intro first other
  refine ⟨h.storage_stage_comm s, ?_, ?_⟩
  · exact Outcome.echoes_of_report (h.report_stage_after s)
  · exact Outcome.echoes_of_report (h.symm.report_stage_after s)

/-- A file is in the way of one of the macro files, in either order. -/
theorem stage_commutes_refused :
    let s := ((bare ["w"]).put ["w", "image"] .directory).put ["w", "image", "x"] (.file [])
    let c : Call := ⟨"image", "etc/a", .ofList [("a", "1")], []⟩
    let d : Call := ⟨"./image/", "/x/c/b", .ofList [("b", "2")], []⟩
    c.Independent d ∧ (d.stage (c.stage s).storage).storage = (c.stage (d.stage s).storage).storage ∧
      (d.stage (c.stage s).storage).Refuses (Path.ofString "image/x/c") "Failed to create directory: image/x/c" ∧
      (c.stage (d.stage s).storage).result = .ok (some (Path.ofString "image/etc/a")) := by
  intro s c d
  have hindependent : c.Independent d := by decide
  obtain ⟨hstorage, hrefused, hstaged⟩ := stage_commutes s c d hindependent
  have hc : (c.stage s).result = .ok (some (Path.ofString "image/etc/a")) := by decide
  have hd : (d.stage s).Refuses (Path.ofString "image/x/c") "Failed to create directory: image/x/c" :=
    Outcome.report_eq_error_iff.1 (by decide)
  exact ⟨hindependent, hstorage, (hrefused.refusal _ _).2 hd, (hstaged.value _).2 hc⟩

end ImageMacros.MacroFile
