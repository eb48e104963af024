import ImageMacros.Proofs.Command.Ending
import ImageMacros.Proofs.MacroFile.RoundTrip

/-!
# What is shown after customizations

* `PlainRoot` : an install root below which the macro files have a place of their own that can be printed;
* `holds_applied`, `fileText?_applied_iff`, `mayBeRoot_applied` : the storage that `apply` leaves if it succeeds: the
  files written are there, all other macro files are as before, and the root still is no file;
* `mayBeRoot_of_exit_zero` : `apply` succeeds only below what may be a root;
* `run_show_applied` : what `show` then prints, and that neither command changes the storage any more;
* `not_shown_deepRoot` : below a root that is too long as a whole `apply` can succeed and `show` fail.
-/

namespace ImageMacros

open Storage
open Text (OneLine unlines plain)

/-! ## Roots -/

namespace Command

/-- A root without double dots whose macro files fit and can be printed as they are. -/
structure PlainRoot (root : String) : Prop where
  plain : ".." ∉ (Path.ofString root).names
  short : ∀ name ∈ (Path.ofString root).names, tooLong name = false
  fits : ∀ p ∈ customizationPlaces root, pathTooLong p.text = false
  printed : '\x1b' ∉ root.toList

section

variable {root : String} {p q : Path}

theorem PlainRoot.plain_names (h : PlainRoot root) (hp : p ∈ customizationPlaces root) :
    ".." ∉ p.names := fun hup =>
  ((names_of_mem_customizationPlaces hp).2 _ hup).elim h.plain fun hharmless => hharmless.2.1 rfl

theorem PlainRoot.short_names (h : PlainRoot root) (hp : p ∈ customizationPlaces root) :
    ∀ name ∈ p.names, tooLong name = false := fun name hname =>
  ((names_of_mem_customizationPlaces hp).2 name hname).elim (h.short name) fun hharmless => hharmless.1

theorem not_mem_name_of_mem_customizationPlaces {c : Char} (hc : c = '\x00' ∨ c = '\x1b') (hroot : c ∉ root.toList)
    (hp : p ∈ customizationPlaces root) : ∀ name ∈ p.names, c ∉ name.toList := by
  intro name hname hmem
  rcases (names_of_mem_customizationPlaces hp).2 name hname with hname | ⟨-, -, hnull, hescape⟩
  · exact hroot (Path.mem_of_mem_names hname hmem)
  · rcases hc with rfl | rfl
    · exact hnull hmem
    · exact hescape hmem

theorem PlainRoot.plain_text (h : PlainRoot root) (hp : p ∈ customizationPlaces root) : '\x1b' ∉ p.text.toList :=
  Path.not_mem_text (by decide) (by decide) (not_mem_name_of_mem_customizationPlaces (.inr rfl) h.printed hp)

theorem hasNull_of_mem_customizationPlaces (hroot : '\x00' ∉ root.toList) (hp : p ∈ customizationPlaces root) :
    p.hasNull = false := by
  unfold Path.hasNull
  rw [List.any_eq_false]
  intro name hname
  simpa using not_mem_name_of_mem_customizationPlaces (.inl rfl) hroot hp name hname

theorem PlainRoot.place_injective (h : PlainRoot root) (s : Storage) (hp : p ∈ customizationPlaces root)
    (hq : q ∈ customizationPlaces root) (hpq : s.place p = s.place q) : p = q := by
  refine eq_of_place_eq ?_ (h.plain_names hp) (h.plain_names hq) hpq
  obtain ⟨_, rfl, -⟩ := mem_customizationPlaces hp
  obtain ⟨_, rfl, -⟩ := mem_customizationPlaces hq
  rfl

theorem nodup_customizationPlaces (root : String) : (customizationPlaces root).Nodup := by
  have hne : (Path.ofString ({} : Customization.Destinations).docs).names ≠
      (Path.ofString ({} : Customization.Destinations).locales).names := by decide +kernel
  have hpaths : Path.under root ({} : Customization.Destinations).docs ≠
      Path.under root ({} : Customization.Destinations).locales := fun he =>
    hne (List.append_cancel_left (congrArg Path.names he))
  simpa [customizationPlaces] using hpaths

end

/-! ## The storage that `apply` leaves -/

/-- The files that `apply` writes for a request. -/
def asked (root : String) (r : Customization.Request) : List Write := Customization.writes root r {}

section

variable {s : Storage} {root : String} {r : Customization.Request} {p : Path}

theorem mem_places_of_asked {w : Write} (hw : w ∈ asked root r) : w.path ∈ customizationPlaces root :=
  (Customization.writes_places root r {}).subset (List.mem_map_of_mem hw)

theorem holds_applied (hroot : PlainRoot root) (hok : s.Succeeds (asked root r)) :
    ∀ w ∈ asked root r, (s.writeAll (asked root r)).Holds w.path w.lines := by
  have hnodup : ((asked root r).map (·.path)).Nodup :=
    (nodup_customizationPlaces root).sublist (Customization.writes_places root r {})
  refine holds_writeAll hok (List.Pairwise.imp_of_mem (fun hv hw hne he => hne ?_) (List.pairwise_map.1 hnodup))
  exact hroot.place_injective s (mem_places_of_asked hv) (mem_places_of_asked hw) he

/-- A macro file that is not written is the one that was there. -/
theorem locate_applied (hroot : PlainRoot root) (hwhole : s.Whole) (hp : p ∈ customizationPlaces root)
    (hother : p ∉ (asked root r).map (·.path)) {l : Location} {content : List UInt8} :
    (s.writeAll (asked root r)).locate p = .ok (l, .file content) ↔ s.locate p = .ok (l, .file content) := by
  refine (follows_writeAll s (asked root r)).locate_file_iff hwhole (hroot.plain_names hp) (hroot.short_names hp)
    (hroot.fits p hp) (lastDone_eq_none fun a ha _ he => hother ?_)
  have hmem := mem_of_mem_attempts ha
  rw [← hroot.place_injective s (mem_places_of_asked hmem) hp he]
  exact List.mem_map_of_mem hmem

theorem mayBeRoot_applied (hroot : PlainRoot root) (hok : s.Succeeds (asked root r)) (hmay : MayBeRoot s root) :
    MayBeRoot (s.writeAll (asked root r)) root := by
  cases hasked : asked root r with
  | nil => exact hmay
  | cons w rest =>
    have hw : w ∈ asked root r := by simp [hasked]
    have hfile := holds_applied hroot hok w hw
    rw [← hasked]
    refine ⟨hmay.1, fun l content hl => ?_⟩
    obtain ⟨q, hpath, hbelow, -⟩ := mem_customizationPlaces (mem_places_of_asked hw)
    obtain ⟨-, hpass, -, -⟩ := slot_eq_some_iff.1 hfile.slot
    rw [hpath] at hpass
    have hdir := Passable.directory hbelow hpass
    obtain ⟨rfl, hnode⟩ := locateText_eq_ok hl
    cases hnode.symm.trans hdir

theorem fileText?_written (hroot : PlainRoot root) (hok : s.Succeeds (asked root r)) {w : Write}
    (hw : w ∈ asked root r) : fileText? (s.writeAll (asked root r)) w.path = some (unlines w.lines) := by
  simp only [fileText?, (holds_applied hroot hok w hw).locate, fileOf, Text.Utf8.decode_encode, Except.toOption]

/-- The files at these places have a text. -/
def Readable (s : Storage) (ps : List Path) : Prop :=
  ∀ p ∈ ps, ∀ l content, s.locate p = .ok (l, .file content) → ∃ text, Text.Utf8.decode content = .ok text

def hasText : Except Obstacle (Location × Node) → Bool
  | .ok (_, .file content) => (Text.Utf8.decode content).toOption.isSome
  | _ => true

instance (s : Storage) (ps : List Path) : Decidable (Readable s ps) :=
  decidable_of_iff (∀ p ∈ ps, hasText (s.locate p) = true) <| by
    refine forall₂_congr fun p _ => ?_
    unfold hasText
    split
    · next l content hfile =>
      rw [hfile]
      cases hdecode : Text.Utf8.decode content <;> simp [hdecode, Except.toOption]
    · next hother => exact ⟨fun _ l content hfile => absurd hfile (hother l content), fun _ => rfl⟩

theorem readable_applied (hroot : PlainRoot root) (hwhole : s.Whole) (hok : s.Succeeds (asked root r))
    (hread : Readable s (customizationPlaces root)) :
    Readable (s.writeAll (asked root r)) (customizationPlaces root) := by
  intro p hp l content hfile
  by_cases hwritten : p ∈ (asked root r).map (·.path)
  · obtain ⟨w, hw, rfl⟩ := List.mem_map.1 hwritten
    rw [(holds_applied hroot hok w hw).locate] at hfile
    cases hfile
    exact ⟨_, Text.Utf8.decode_encode _⟩
  · exact hread p hp l content ((locate_applied hroot hwhole hp hwritten).1 hfile)

/-- There is a text to show exactly where a file was written or was there. -/
theorem fileText?_applied_iff (hroot : PlainRoot root) (hwhole : s.Whole) (hok : s.Succeeds (asked root r))
    (hread : Readable s (customizationPlaces root)) (hp : p ∈ customizationPlaces root) :
    (∃ text, fileText? (s.writeAll (asked root r)) p = some text) ↔
      p ∈ (asked root r).map (·.path) ∨ ∃ l content, s.locate p = .ok (l, .file content) := by
  by_cases hwritten : p ∈ (asked root r).map (·.path)
  · obtain ⟨w, hw, rfl⟩ := List.mem_map.1 hwritten
    exact ⟨fun _ => .inl hwritten, fun _ => ⟨_, fileText?_written hroot hok hw⟩⟩
  · rw [or_iff_right hwritten]
    constructor
    · rintro ⟨text, htext⟩
      unfold fileText? at htext
      split at htext
      · next l content hfile => exact ⟨l, content, (locate_applied hroot hwhole hp hwritten).1 hfile⟩
      · cases htext
    · rintro ⟨l, content, hfile⟩
      obtain ⟨text, htext⟩ := hread p hp l content hfile
      refine ⟨text, ?_⟩
      simp only [fileText?, (locate_applied hroot hwhole hp hwritten).2 hfile, htext, Except.toOption]

theorem shown_of_readable (hroot : PlainRoot root) (hnull : '\x00' ∉ root.toList)
    (hread : Readable s (customizationPlaces root)) : ∀ p ∈ customizationPlaces root,
      p.names ≠ [] ∧ p.hasNull = false ∧ (showFile s p).failure = none := by
  intro p hp
  have hne := (names_of_mem_customizationPlaces hp).1
  refine ⟨hne, hasNull_of_mem_customizationPlaces hnull hp, ?_⟩
  cases hf : (showFile s p).failure with
  | none => rfl
  | some f =>
    rcases failure_showFile hne hf with ⟨l, content, fault, hfile, hdecode, -⟩ | ⟨hlong, -⟩
    · obtain ⟨text, htext⟩ := hread p hp l content hfile
      cases hdecode.symm.trans htext
    · rcases tooLong_of_locate hlong with hlong | ⟨name, hname, hlong⟩
      · cases (hroot.fits p hp).symm.trans hlong
      · cases (hroot.short_names hp name hname).symm.trans hlong

theorem lines_of_asked (hline : OneLine r.locales) (hescape : '\x1b' ∉ r.locales.toList) {w : Write}
    (hw : w ∈ asked root r) : ∀ l ∈ w.lines, OneLine l ∧ '\x1b' ∉ l.toList := by
  have hheader : ∀ l ∈ MacroFile.header ++ [MacroFile.definition "_excludedocs" "1"],
      OneLine l ∧ '\x1b' ∉ l.toList := by
    decide +kernel
  have hlocales : OneLine (MacroFile.definition "_install_langs" r.locales) ∧
      '\x1b' ∉ (MacroFile.definition "_install_langs" r.locales).toList :=
    ⟨MacroFile.oneLine_definition_iff.2 ⟨by decide, hline⟩, by simpa [MacroFile.definition] using hescape⟩
  rw [asked, Customization.writes_eq] at hw
  rcases List.mem_append.1 hw with hw | hw
  · split at hw
    · obtain rfl := List.mem_singleton.1 hw
      exact hheader
    · cases hw
  · split at hw
    · cases hw
    · obtain rfl := List.mem_singleton.1 hw
      refine List.forall_mem_append.2 ⟨fun l hl => hheader l (List.mem_append_left _ hl), ?_⟩
      simpa using hlocales

theorem unlines_of_asked (hline : OneLine r.locales) (hescape : '\x1b' ∉ r.locales.toList) {w : Write}
    (hw : w ∈ asked root r) :
    unlines ((Text.lines (unlines w.lines)).map plain) = unlines w.lines := by
  have hlines := lines_of_asked hline hescape hw
  rw [Text.lines_unlines fun l hl => (hlines l hl).1,
    List.map_congr_left fun l hl => Text.plain_of_not_mem (hlines l hl).2, List.map_id']

end

/-! ## What is printed -/

/-- The files at these paths, each with the text that is printed of it. -/
def printedBlocks (s : Storage) (ps : List Path) : List (Path × String) :=
  (shownBlocks s ps).map fun b => (b.1, unlines ((Text.lines b.2).map plain))

theorem printedBlocks_places (s : Storage) (ps : List Path) : ((printedBlocks s ps).map (·.1)).Sublist ps := by
  unfold printedBlocks
  rw [List.map_map]
  exact shownBlocks_places s ps

theorem mem_printedBlocks {s : Storage} {ps : List Path} {p : Path} :
    p ∈ (printedBlocks s ps).map (·.1) ↔ p ∈ ps ∧ ∃ text, fileText? s p = some text := by
  simp only [printedBlocks, List.map_map, List.mem_map, Function.comp_apply, mem_shownBlocks]
  constructor
  · rintro ⟨b, hb, rfl⟩
    exact ⟨hb.1, _, hb.2⟩
  · rintro ⟨hp, text, htext⟩
    exact ⟨(p, text), ⟨hp, htext⟩, rfl⟩

theorem stdout_runShow {x : Session} {root : String} (hroot : PlainRoot root)
    (h : ∀ p ∈ customizationPlaces root, p.names ≠ [] ∧ p.hasNull = false ∧ (showFile x.storage p).failure = none) :
    (runShow x ⟨some root⟩).stdout =
      if printedBlocks x.storage (customizationPlaces root) = [] then
        "No customization macro files under " ++ (Path.ofString root).text ++ "\n"
      else String.join ((printedBlocks x.storage (customizationPlaces root)).map fun b =>
        "==> " ++ b.1.text ++ " <==\n" ++ b.2) := by
  have htitle : ∀ b ∈ shownBlocks x.storage (customizationPlaces root), unlines ((blockLines b).map plain) =
      "==> " ++ b.1.text ++ " <==\n" ++ unlines ((Text.lines b.2).map plain) := by
    intro b hb
    have hplain : plain s!"==> {b.1.text} <==" = s!"==> {b.1.text} <==" := Text.plain_of_not_mem (by
      simpa [toString] using hroot.plain_text (mem_shownBlocks.1 hb).1)
    rw [blockLines, List.map_cons, hplain]
    simp [unlines, toString, String.append_assoc]
  have hnone : plain s!"No customization macro files under {(Path.ofString root).text}" =
      "No customization macro files under " ++ (Path.ofString root).text := by
    have hescape : '\x1b' ∉ (Path.ofString root).text.toList :=
      Path.not_mem_text (by decide) (by decide) fun name hname hmem => hroot.printed (Path.mem_of_mem_names hname hmem)
    rw [Text.plain_of_not_mem (by simpa [toString] using hescape)]
    simp [toString]
  rw [(runShow_blocks h).2, hnone, List.map_congr_left htitle, printedBlocks, List.map_map]
  simp only [List.map_eq_nil_iff]
  rfl

/-! ## The runs -/

section

variable {x : Session} {given : List ApplyGiven} {root : String}

/-- `apply` succeeds only below what may be a root. -/
theorem mayBeRoot_of_exit_zero (hgiven : (ApplyArguments.ofGiven given).installRoot = some root)
    (h : (run x ("apply" :: applyWords given)).ending = .exit 0) : MayBeRoot x.storage root := by
  have hstop : ∀ stop, checkRoot x.storage .apply root = .error stop → stop.ending = .exit 0 := by
    intro stop hroot
    have hsaid : Subcommand.apply.stop? x.storage (applyWords given) = some stop := by
      rw [Subcommand.stop?_eq, said_applyWords, hgiven]
      simp [Said.stop?, hroot, stopOf]
    rw [show "apply" = Subcommand.apply.word from rfl, run_word, runSubcommand_of_stop hsaid] at h
    exact (ending_stop x stop).symm.trans h
  rcases checkRoot_cases x.storage .apply root with ⟨-, hmay⟩ | ⟨herror, -⟩ | ⟨herror, -⟩
  · exact hmay
  · cases hstop _ herror
  · cases hstop _ herror

theorem succeeds_of_exit_zero {s : Storage} {r : Customization.Request}
    (h : Ending.ofResult (Customization.apply s root r {}).result = .exit 0) : s.Succeeds (asked root r) := by
  refine (Customization.apply_ok_iff _ _ _ _).1 ?_
  cases hresult : (Customization.apply s root r {}).result with
  | ok places => exact ⟨places, rfl⟩
  | error f => cases f <;> simp [hresult, Ending.ofResult] at h

theorem storage_performAll_again {s : Storage} {exclude joined : Bool} {locales : String}
    (hgiven : ApplyArguments.ofGiven given = ⟨some root, some exclude, some locales⟩) (hroot : PlainRoot root)
    (hmay : MayBeRoot s root) (hok : s.Succeeds (asked root ⟨exclude, locales⟩)) {ops : List Operation}
    (hops : ∀ op ∈ ops, op = .command ("apply" :: applyWords given) ∨ op = .command ("show" :: showWords root joined))
    (hx : x.storage = s.writeAll (asked root ⟨exclude, locales⟩)) :
    (x.performAll ops).storage = s.writeAll (asked root ⟨exclude, locales⟩) := by
  induction ops generalizing x with
  | nil => exact hx
  | cons op ops ih =>
    have hmayx : MayBeRoot x.storage root := hx ▸ mayBeRoot_applied hroot hok hmay
    refine ih (x := (x.perform op).session) (fun o ho => hops o (List.mem_cons_of_mem op ho)) ?_
    rcases hops op List.mem_cons_self with rfl | rfl
    · change (run x ("apply" :: applyWords given)).session.storage = _
      rw [run_given hgiven hmayx, storage_runApply, customized_of_given, Customization.storage_apply, hx]
      exact writeAll_of_holds (holds_applied hroot hok)
    · have hrun : run x ("show" :: showWords root joined) = runShow x ⟨some root⟩ := run_showWords hmayx joined
      change (run x ("show" :: showWords root joined)).session.storage = _
      rw [hrun, session_runShow, ← hx]
      rfl

/-- After `apply` has succeeded, `show` prints the macro files that were written and those that were there, each
with exactly its text, and from then on neither command changes the storage. -/
theorem run_show_applied {exclude : Bool} {locales : String} (joined : Bool)
    (hgiven : ApplyArguments.ofGiven given = ⟨some root, some exclude, some locales⟩) (hroot : PlainRoot root)
    (hline : OneLine locales) (hescape : '\x1b' ∉ locales.toList) (hwhole : x.storage.Whole)
    (hread : Readable x.storage (customizationPlaces root))
    (hexit : (run x ("apply" :: applyWords given)).ending = .exit 0) :
    let written := asked root ⟨exclude, locales⟩
    let applied := run x ("apply" :: applyWords given)
    let shown := run applied.session ("show" :: showWords root joined)
    applied.stdout = unlines (written.map (·.path.text)) ∧ shown.ending = .exit 0 ∧
      (∃ blocks : List (Path × String),
        shown.stdout = (if blocks = [] then
            "No customization macro files under " ++ (Path.ofString root).text ++ "\n"
          else String.join (blocks.map fun b => "==> " ++ b.1.text ++ " <==\n" ++ b.2)) ∧
        (blocks.map (·.1)).Sublist (customizationPlaces root) ∧
        (∀ p, p ∈ blocks.map (·.1) ↔ p ∈ customizationPlaces root ∧
          (p ∈ written.map (·.path) ∨ ∃ l content, x.storage.locate p = .ok (l, .file content))) ∧
        ∀ w ∈ written, (w.path, unlines w.lines) ∈ blocks ∧
          applied.session.storage.readFile w.path.text = .ok (Text.Utf8.encode (unlines w.lines))) ∧
      ∀ ops, (∀ op ∈ ops, op = .command ("apply" :: applyWords given) ∨
          op = .command ("show" :: showWords root joined)) →
        (shown.session.performAll ops).storage = applied.session.storage := by
  intro written applied shown
  have hmay : MayBeRoot x.storage root := mayBeRoot_of_exit_zero (by rw [hgiven]) hexit
  have hrun : applied = runApply x ⟨some root, some exclude, some locales⟩ := run_given hgiven hmay
  have hok : x.storage.Succeeds written := by
    refine succeeds_of_exit_zero ?_
    rw [← customized_of_given, ← ending_runApply, ← hrun]
    exact hexit
  have hstorage : applied.session.storage = x.storage.writeAll written := by
    rw [hrun, storage_runApply, customized_of_given]
    exact Customization.storage_apply _ _ _ _
  have hmayApplied : MayBeRoot applied.session.storage root := hstorage ▸ mayBeRoot_applied hroot hok hmay
  have hshown : shown = runShow applied.session ⟨some root⟩ := run_showWords hmayApplied joined
  have hreadApplied : Readable applied.session.storage (customizationPlaces root) :=
    hstorage ▸ readable_applied hroot hwhole hok hread
  refine ⟨?_, ?_, ?_, fun ops hops => ?_⟩
  · have hplain : written.map (plain ·.path.text) = written.map (·.path.text) := List.map_congr_left fun w hw =>
      Text.plain_of_not_mem (hroot.plain_text (mem_places_of_asked hw))
    obtain ⟨places, hplaces⟩ := (Customization.apply_ok_iff _ _ _ _).2 hok
    rw [hrun, (runApply_ok (by rw [customized_of_given, hplaces])).2, Customization.places_apply hplaces, List.map_map]
    exact congrArg unlines hplain
  · rw [hshown]
    exact (runShow_blocks (shown_of_readable hroot hmay.1 hreadApplied)).1
  · refine ⟨printedBlocks applied.session.storage (customizationPlaces root), ?_, printedBlocks_places _ _,
      fun p => ?_, fun w hw => ⟨?_, ?_⟩⟩
    · rw [hshown]
      exact stdout_runShow hroot (shown_of_readable hroot hmay.1 hreadApplied)
    · rw [mem_printedBlocks, hstorage]
      exact and_congr_right fun hp => fileText?_applied_iff hroot hwhole hok hread hp
    · rw [hstorage, ← unlines_of_asked hline hescape hw]
      exact List.mem_map.2 ⟨(w.path, unlines w.lines),
        mem_shownBlocks.2 ⟨mem_places_of_asked hw, fileText?_written hroot hok hw⟩, rfl⟩
    · rw [hstorage]
      exact (holds_applied hroot hok w hw).readFile
  · rw [hstorage]
    refine storage_performAll_again hgiven hroot hmay hok hops ?_
    rw [hshown, session_runShow, ← hstorage]
    rfl

end

def oldLocales : Session := (Session.fresh ["w"]).performAll
  [.putFile ("img" ++ ({} : Customization.Destinations).locales) (Text.Utf8.encode "%_install_langs old\n")]

theorem run_show_oldLocales :
    let given : List ApplyGiven := [.docs true, .installRoot "./img/" true, .locales "" false]
    let applied := run oldLocales ("apply" :: applyWords given)
    ApplyArguments.ofGiven given = ⟨some "./img/", some true, some ""⟩ ∧ PlainRoot "./img/" ∧
      OneLine "" ∧ '\x1b' ∉ "".toList ∧ oldLocales.storage.Whole ∧
      Readable oldLocales.storage (customizationPlaces "./img/") ∧ applied.ending = .exit 0 ∧
      (run applied.session ("show" :: showWords "./img/" true)).ending = .exit 0 := by
  intro given applied
  have hgiven : ApplyArguments.ofGiven given = ⟨some "./img/", some true, some ""⟩ := by decide
  have hroot : PlainRoot "./img/" := ⟨by decide, by decide, by decide +kernel, by decide⟩
  have hwhole : oldLocales.storage.Whole := Session.whole_performAll (whole_bare ["w"]) _
  have hread : Readable oldLocales.storage (customizationPlaces "./img/") := by decide +kernel
  have hexit : applied.ending = .exit 0 := by decide +kernel
  exact ⟨hgiven, hroot, by decide, by decide, hwhole, hread, hexit,
    (run_show_applied true hgiven hroot (by decide) (by decide) hwhole hread hexit).2.1⟩

theorem ending_nothing_asked {x : Session} {root : String} (hmay : MayBeRoot x.storage root) :
    (run x ["apply", "--install-root", root, "--keep-rpm-docs", "--override-rpm-locales", ""]).ending = .exit 0 := by
  have hrun : run x ("apply" :: applyWords [.installRoot root false, .docs false, .locales "" false]) =
      runApply x ⟨some root, some false, some ""⟩ := run_given rfl hmay
  have hnothing : Customization.planned ⟨false, ""⟩ {} = [] := rfl
  refine (congrArg Run.ending hrun).trans ?_
  rw [ending_runApply, customized_of_given]
  simp only [Customization.apply, hnothing, Customization.stageAll, Ending.ofResult]

/-- Below a root that is too long as a whole nothing is written or shown, and yet `show` fails. -/
theorem not_shown_deepRoot :
    let applied := run (.fresh ["w"])
      ["apply", "--install-root", deepRoot.text, "--keep-rpm-docs", "--override-rpm-locales", ""]
    (∀ name ∈ (Path.ofString deepRoot.text).names, tooLong name = false ∧ name ≠ "..") ∧
      '\x1b' ∉ deepRoot.text.toList ∧
      Readable (Session.fresh ["w"]).storage (customizationPlaces deepRoot.text) ∧ applied.ending = .exit 0 ∧
      ∀ code, (run applied.session ["show", "--install-root", deepRoot.text]).ending ≠ .exit code := by
  intro applied
  have hname : ∀ name ∈ deepRoot.names, name = longName := fun name h => Path.eq_longName h
  refine ⟨fun name h => ?_, ?_, fun p hp l content hfile => ?_, ending_nothing_asked (mayBeRoot_deepRoot _),
    fun code hexit => ?_⟩
  · rw [Path.ofString_text] at h
    rw [hname name h]
    exact ⟨longName_fits.1, longName_fits.2.2.2.2⟩
  · refine Path.not_mem_text (by decide) (by decide) fun name h => ?_
    rw [hname name h]
    exact longName_fits.2.2.2.1
  · obtain ⟨q, rfl, -⟩ := mem_customizationPlaces hp
    rw [Path.ofString_text, locate, if_pos (pathTooLong_deepRoot q)] at hfile
    cases hfile
  · cases hexit.symm.trans (ending_show_deepRoot applied.session false)

end Command
end ImageMacros
