import ImageMacros.Proofs.Session.Store

/-!
# Look-ups that leave each other as they are

* `value_lookup` : a setting as a function of the environment and the file layer;
* `Agrees` : sessions in which every setting has the same value, as a look-up leaves them (`agrees_lookup`);
* `value_orSetting`, `value_resolve` : options that are not given are looked up in the session
  that the command starts from, whatever is looked up before them;
* `value_settings` : all settings at once;
* `configured`, `outcome_configured` : what they ask for, and that it is done.
-/

namespace ImageMacros

open Command (orSetting ApplyArguments)

namespace Session

theorem value_lookup {α : Type} (x : Session) (st : Setting α) :
    (x.lookup st).value = match x.environment.get? st.variableName with
      | some text => (st.read st.variableName text).1
      | none => st.ofLayer x.fileLayer.value := by
  cases h : x.environment.get? st.variableName with
  | some text => simp only [lookup, h]
  | none => exact value_lookup_of_unset h

theorem session_lookup_of_set {α : Type} {x : Session} {st : Setting α} {text : String}
    (h : x.environment.get? st.variableName = some text) : (x.lookup st).session = x := by
  simp only [lookup, h]

/-- Sessions with the same environment and file layer, so that every setting has the same value. -/
structure Agrees (x y : Session) : Prop where
  environment : y.environment = x.environment
  fileLayer : y.fileLayer.value = x.fileLayer.value

theorem Agrees.refl (x : Session) : Agrees x x := ⟨rfl, rfl⟩

theorem Agrees.trans {x y z : Session} (h : Agrees x y) (h' : Agrees y z) : Agrees x z :=
  ⟨h'.environment.trans h.environment, h'.fileLayer.trans h.fileLayer⟩

theorem Agrees.value_lookup {x y : Session} (h : Agrees x y) {α : Type} (st : Setting α) :
    (y.lookup st).value = (x.lookup st).value := by
  rw [Session.value_lookup, Session.value_lookup, h.environment, h.fileLayer]

/-- A look-up that reads the file layer leaves it loaded, and so as it was. -/
theorem agrees_fileLayer (x : Session) : Agrees x x.fileLayer.session := by
  constructor
  · unfold fileLayer
    split <;> rfl
  · rw [value_fileLayer, loaded_fileLayer, Option.getD_some, value_fileLayer]

theorem environment_load (x : Session) (place : String) : (x.load place).session.environment = x.environment := rfl

theorem value_fileLayer_load (x : Session) (place : String) :
    (x.load place).session.fileLayer.value = (x.readLayer place).1 := rfl

theorem agrees_lookup {α : Type} (x : Session) (st : Setting α) : Agrees x (x.lookup st).session := by
  rw [session_lookup, take]
  split
  · exact agrees_fileLayer x
  · exact .refl x

/-! ## Options and settings -/

theorem value_orSetting {α : Type} (x : Session) (given : Option α) (st : Setting α) :
    (orSetting x given st).value = given.getD (x.lookup st).value := by
  cases given <;> rfl

theorem agrees_orSetting {α : Type} (x : Session) (given : Option α) (st : Setting α) :
    Agrees x (orSetting x given st).session := by
  cases given with
  | some value => exact .refl x
  | none => exact agrees_lookup x st

theorem value_resolve (x : Session) (a : ApplyArguments) :
    (a.resolve x).value = (a.installRoot.getD (x.lookup .installRoot).value,
      ⟨a.excludeDocs.getD (x.lookup .excludeDocs).value, a.locales.getD (x.lookup .locales).value⟩) := by
  have hroot := agrees_orSetting x a.installRoot .installRoot
  have hdocs := hroot.trans (agrees_orSetting _ a.excludeDocs .excludeDocs)
  unfold ApplyArguments.resolve
  dsimp only
  rw [value_orSetting, value_orSetting, value_orSetting, hroot.value_lookup, hdocs.value_lookup]

theorem value_settings (x : Session) : x.settings.value =
    ⟨(x.lookup .excludeDocs).value, (x.lookup .locales).value, (x.lookup .installRoot).value⟩ := by
  have hdocs := agrees_lookup x .excludeDocs
  have hlocales := hdocs.trans (agrees_lookup _ .locales)
  unfold settings
  dsimp only
  rw [hdocs.value_lookup, hlocales.value_lookup]

/-- What the settings ask for. -/
def configured (x : Session) : Customization.Request := ⟨(x.lookup .excludeDocs).value, (x.lookup .locales).value⟩

def Reply.outcome {α : Type} (r : Reply α) : Outcome α := ⟨r.result, r.session.storage, r.log⟩

/-- The settings are looked up, and the customizations do the rest. -/
theorem outcome_configured (x : Session) (root : String) :
    let done := Customization.apply x.storage root x.configured {}
    (x.customizeAsConfigured root).outcome = ⟨done.result, done.storage, x.settings.log ++ done.log⟩ := by
  unfold Reply.outcome customizeAsConfigured customize withOutcome
  dsimp only
  rw [value_settings, storage_settings]
  rfl

end Session
end ImageMacros
