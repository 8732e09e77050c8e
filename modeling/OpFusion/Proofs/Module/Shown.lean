/-
  The text of a module does not tell all that its key depends on.

  Modules of one text have the same inputs and outputs, and applications of the same variables and
  versions, but for missing and empty ones. They have one key exactly if their kinds, parameters,
  requirements and permissions to overlap are the same. If nothing in their headers was changed to stand
  in a comment, they need only agree in what no text shows: whether calls may overlap, the initialisation
  code as it was given, and which versions are missing rather than empty
  (`Assembly.key_eq_of_source_eq`). There are modules of one text that do not
  (`Assembly.key_ne_of_source_eq`).
-/
import OpFusion.Proofs.Module.Header
import OpFusion.Proofs.Module.Identity

namespace OpFusion

namespace Module

/-- Modules whose applications are, one by one, of kinds with the same name and parameters, with a version
or without, and which require and permit the same. -/
structure Corresponds (m m' : Module) : Prop where
  kinds : (m.applications.map fun s => (s.kind, s.params, s.version.isSome)) =
    m'.applications.map fun s => (s.kind, s.params, s.version.isSome)
  link : m.link = m'.link
  reentrant : m.reentrant = m'.reentrant

/-- A module with nothing in its header that was changed to stand in a comment. -/
structure Legible (m : Module) : Prop where
  signatures : ∀ s ∈ m.applications, Source.commentText s.text = s.text
  link : ∀ e ∈ m.link.shown, Readable e.2

/-- Modules that agree in what no text shows: whether calls may overlap, the initialisation code as it was
given, and which versions are missing rather than empty. -/
structure Unshown (m m' : Module) : Prop where
  reentrant : m.reentrant = m'.reentrant
  initCode : m.link.initCode = m'.link.initCode
  versions : m.applications.map (·.version.isSome) = m'.applications.map (·.version.isSome)

variable {m m' : Module}

theorem Agrees.corresponds (h : m.Agrees m') : m.Corresponds m' :=
  ⟨by rw [h.applications], h.link, h.reentrant⟩

theorem Agrees.unshown (h : m.Agrees m') : m.Unshown m' :=
  ⟨h.reentrant, by rw [h.link], by rw [h.applications]⟩

end Module

namespace Assembly

variable {g g' : Graph} {m m' : Module}

theorem exists_of_mem_signaturesFrom {s : Signature} {position : Nat} {apps : List Application}
    (h : s ∈ signaturesFrom g position apps) : ∃ i a, s = signature g a (context g i a) := by
  induction apps generalizing position with
  | nil => cases h
  | cons a apps ih =>
    rcases List.mem_cons.1 h with rfl | h
    · exact ⟨position, a, rfl⟩
    · exact ih h

/-- Signatures from one position on are told by anything that tells the one at each position. -/
theorem signaturesFrom_inj {β : Type} {f : Signature → β}
    (hf : ∀ {position : Nat} {s s' : Signature}, s.name = Symbol.application position s.kind →
      s'.name = Symbol.application position s'.kind → f s = f s' → s = s')
    {position : Nat} {apps apps' : List Application}
    (h : (signaturesFrom g position apps).map f = (signaturesFrom g' position apps').map f) :
    signaturesFrom g position apps = signaturesFrom g' position apps' := by
  induction apps generalizing position apps' with
  | nil =>
    cases apps' with
    | nil => rfl
    | cons a' apps' => cases h
  | cons a apps ih =>
    cases apps' with
    | nil => cases h
    | cons a' apps' =>
      obtain ⟨hhead, htail⟩ := List.cons.inj h
      rw [signaturesFrom, signaturesFrom, ih htail, hf rfl rfl hhead]

/-- What modules of one text are known to have in common. -/
theorem shown_eq (hm : assemble g = .ok m) (hm' : assemble g' = .ok m') (h : m.source = m'.source) :
    m.inputs = m'.inputs ∧ m.outputs = m'.outputs ∧
      (m.applications.map fun s => " * " ++ Source.commentText s.text) ++ Module.linkLines m.link =
        (m'.applications.map fun s => " * " ++ Source.commentText s.text) ++ Module.linkLines m'.link := by
  obtain ⟨rest, hrest⟩ := Module.exists_source_eq hm
  obtain ⟨rest', hrest'⟩ := Module.exists_source_eq hm'
  have hlines := Module.headerLines_inj (hrest.symm.trans (h.trans hrest'))
  simp only [Module.headerLines, List.cons_append, List.nil_append, List.cons.injEq, true_and] at hlines
  obtain ⟨hinputs, houtputs, htail⟩ := hlines
  exact ⟨Module.bracketed_inj hinputs, Module.bracketed_inj houtputs, htail⟩

theorem commentTexts_eq {signatures signatures' : List Signature}
    (h : (signatures.map fun s => " * " ++ Source.commentText s.text) =
      signatures'.map fun s => " * " ++ Source.commentText s.text) :
    (signatures.map fun s => Source.commentText s.text) =
      signatures'.map fun s => Source.commentText s.text := by
  have hinjective : Function.Injective (" * " ++ · : String → String) := fun _ _ =>
    String.append_right_inj _ |>.1
  refine List.map_injective_iff.2 hinjective ?_
  rw [List.map_map, List.map_map]
  exact h

/-- Modules of one text that correspond have one manifest. -/
theorem agrees_of_corresponds (hm : assemble g = .ok m) (hm' : assemble g' = .ok m')
    (h : m.source = m'.source) (hcorresponds : m.Corresponds m') : m.Agrees m' := by
  obtain ⟨hinputs, houtputs, hlines⟩ := shown_eq hm hm' h
  rw [hcorresponds.link] at hlines
  have htexts := commentTexts_eq (List.append_cancel_right hlines)
  refine ⟨hinputs, houtputs, ?_, hcorresponds.link, hcorresponds.reentrant⟩
  have hboth := congrArg₂ List.zip htexts hcorresponds.kinds
  rw [List.zip_map', List.zip_map', applications_eq hm, applications_eq hm'] at hboth
  rw [applications_eq hm, applications_eq hm']
  refine signaturesFrom_inj (fun hs hs' heq => ?_) hboth
  simp only [Prod.mk.injEq] at heq
  obtain ⟨htext, hkind, hparams, hsome⟩ := heq
  exact Signature.commentText_inj hs hs' hkind hparams hsome htext

theorem startsName_of_legible (hm : assemble g = .ok m) (hl : m.Legible) :
    ∀ line ∈ m.applications.map fun s => " * " ++ Source.commentText s.text,
      Module.startsName line = true := by
  intro line hline
  obtain ⟨s, hs, rfl⟩ := List.mem_map.1 hline
  rw [hl.signatures s hs]
  rw [applications_eq hm] at hs
  obtain ⟨i, a, rfl⟩ := exists_of_mem_signaturesFrom hs
  exact Module.startsName_signature (by simp [signature, context, Symbol.application])

/-- Legible modules of one text have one manifest if they agree in what it does not show. -/
theorem agrees_of_unshown (hm : assemble g = .ok m) (hm' : assemble g' = .ok m') (hl : m.Legible)
    (hl' : m'.Legible) (h : m.source = m'.source) (hunshown : m.Unshown m') : m.Agrees m' := by
  obtain ⟨hinputs, houtputs, hlines⟩ := shown_eq hm hm' h
  obtain ⟨htexts, hlinks⟩ := Module.tail_inj (startsName_of_legible hm hl)
    (startsName_of_legible hm' hl') hlines
  have happs : m.applications = m'.applications := by
    replace htexts := commentTexts_eq htexts
    rw [List.map_congr_left hl.signatures, List.map_congr_left hl'.signatures] at htexts
    have hboth := congrArg₂ List.zip htexts hunshown.versions
    rw [List.zip_map', List.zip_map', applications_eq hm, applications_eq hm'] at hboth
    rw [applications_eq hm, applications_eq hm']
    refine signaturesFrom_inj (fun hs hs' heq => ?_) hboth
    simp only [Prod.mk.injEq] at heq
    exact Signature.text_inj hs hs' heq.1 heq.2
  have hlink : m.link.shown = m'.link.shown := by
    rw [Module.linkLines_eq, Module.linkLines_eq] at hlinks
    exact Module.linkLines_inj rfl (by rw [Module.labels_shown]; decide)
      (by rw [Module.labels_shown]; decide) hl.link hl'.link hlinks
  exact ⟨hinputs, houtputs, happs, Link.eq_of_shown hlink hunshown.initCode, hunshown.reentrant⟩

/-- **When modules of one text have one key.** If their kinds, parameters, requirements and permissions to
overlap are the same, their keys are the same for every compiler, and if not, what is hashed differs.
Legible modules need only agree in what no text shows. -/
theorem key_eq_of_source_eq (hm : assemble g = .ok m) (hm' : assemble g' = .ok m')
    (h : m.source = m'.source) :
    (m.Corresponds m' → ∀ t, m.key t = m'.key t) ∧
    (m.Fits → m'.Fits → ∀ t : Identity, t.Fits →
      Manifest.material m t = Manifest.material m' t → m.Corresponds m') ∧
    (m.Legible → m'.Legible → (m.Corresponds m' ↔ m.Unshown m')) := by
  refine ⟨fun hc t => ?_, fun hfits hfits' t ht hmaterial => ?_, fun hl hl' => ⟨fun hc => ?_, fun hu => ?_⟩⟩
  · exact Manifest.key_congr (agrees_of_corresponds hm hm' h hc) (fun _ => h) t
  · obtain ⟨-, hagrees, -⟩ := Manifest.material_inj hfits ht hfits' ht hmaterial
    exact hagrees.corresponds
  · exact (agrees_of_corresponds hm hm' h hc).unshown
  · exact (agrees_of_unshown hm hm' hl hl' h hu).corresponds

/-! ## Modules of one text -/

open Script (tick ticked)

variable {version version' : Option Version} {reentrant reentrant' : Bool} {initCode : List String}
  {body body' : Body}

/-- Of such a kind, the text shows the version and the code. -/
theorem source_tick (hm : assemble (tick version reentrant initCode body).alone = .ok m)
    (hm' : assemble (tick version' reentrant' initCode body').alone = .ok m')
    (hversion : ∀ name kind params inputs outputs,
      Signature.versionText ⟨name, kind, params, version, inputs, outputs⟩ =
        Signature.versionText ⟨name, kind, params, version', inputs, outputs⟩)
    (hbody : ∀ c, body.text c = body'.text c) : m.source = m'.source := by
  obtain ⟨p, q, hp, hq, rfl⟩ := assemble_eq_ok hm
  obtain ⟨p', q', hp', hq', rfl⟩ := assemble_eq_ok hm'
  rw [Script.collect_tick] at hp hp'
  cases hp
  cases hp'
  have hparts : parts (tick version reentrant initCode body).alone (ticked version reentrant initCode body) =
      parts (tick version' reentrant' initCode body').alone (ticked version' reentrant' initCode body') := by
    refine parts_congr rfl rfl rfl ?_ rfl ⟨rfl, rfl, ?_, rfl⟩
    · simp only [ticked, List.map_cons, List.map_nil, Signature.text, hversion]
    · simp only [ticked, List.map_cons, List.map_nil, Plan.wording, hbody]
  rw [hq, hq'] at hparts
  exact congrArg Parts.text (Except.ok.inj hparts)

theorem legible_tick (hm : assemble (tick (some [1, 0]) reentrant initCode body).alone = .ok m) :
    m.Legible := by
  have hagrees := agrees_tick hm
  constructor
  · intro s hs
    rw [hagrees.applications] at hs
    cases List.mem_singleton.1 hs
    decide +kernel
  · intro e he
    rw [hagrees.link] at he
    have hempty : e.2 = [] := by
      simp only [Link.shown, List.mem_cons, List.not_mem_nil, or_false] at he
      rcases he with rfl | rfl | rfl | rfl | rfl | rfl <;> rfl
    rw [hempty]
    exact ⟨by decide, by simp⟩

/-- Kinds that write no code, one as no statements and one as no text, have modules of one key. -/
theorem key_eq_tick : ∃ m m', assemble (tick (some [1, 0]) true [] (.steps [])).alone = .ok m ∧
    assemble (tick (some [1, 0]) true [] (.code "")).alone = .ok m' ∧ m.source = m'.source ∧
    ∀ t, m.key t = m'.key t := by
  have hplain : Text.Plain "" := Text.plain_ofList (l := []) rfl
  obtain ⟨m, hm⟩ : ∃ m, assemble (tick (some [1, 0]) true [] (.steps [])).alone = .ok m :=
    Script.assemble_tick (by simp) fun _ => hplain
  obtain ⟨m', hm'⟩ : ∃ m, assemble (tick (some [1, 0]) true [] (.code "")).alone = .ok m :=
    Script.assemble_tick (by simp) fun _ => hplain
  have hsource := source_tick hm hm' (fun _ _ _ _ _ => rfl) fun _ => rfl
  refine ⟨m, m', hm, hm', hsource, ?_⟩
  obtain ⟨hkey, -, hiff⟩ := key_eq_of_source_eq hm hm' hsource
  have hunshown := ((agrees_tick hm).trans (agrees_tick hm').symm).unshown
  exact hkey ((hiff (legible_tick hm) (legible_tick hm')).2 hunshown)

/-- An empty version is written with its length. -/
theorem length_encode_tick (t : Identity) : (Manifest.encode (tickManifest (some []) true []) t).length =
    (Manifest.encode (tickManifest none true []) t).length + 8 := by
  simp only [Manifest.encode, tickManifest, Wire.list, List.flatMap_cons, List.flatMap_nil,
    Manifest.signatureBytes, Wire.option, Manifest.versionBytes, List.length_append, List.length_cons,
    List.length_nil, Wire.u64, length_leBytes]
  omega

/-- Modules of one text that differ in whether calls may overlap have two keys, and modules of one text, one
with an empty version and one without, do not hash the same. -/
theorem key_ne_of_source_eq :
    (∃ m m', assemble (tick (some [1, 0]) true [] (.steps [])).alone = .ok m ∧
      assemble (tick (some [1, 0]) false [] (.steps [])).alone = .ok m' ∧ m.source = m'.source ∧
      m.key ⟨"cc", "cc (test) 1.0", ["-O2"]⟩ ≠ m'.key ⟨"cc", "cc (test) 1.0", ["-O2"]⟩) ∧
    ∃ m m', assemble (tick none true [] (.steps [])).alone = .ok m ∧
      assemble (tick (some []) true [] (.steps [])).alone = .ok m' ∧ m.source = m'.source ∧
      ∀ t, Manifest.material m t ≠ Manifest.material m' t := by
  have hplain : Text.Plain "" := Text.plain_ofList (l := []) rfl
  have hassemble : ∀ version reentrant, ∃ m,
      assemble (tick version reentrant [] (.steps [])).alone = .ok m := fun _ _ =>
    Script.assemble_tick (by simp) fun _ => hplain
  constructor
  · obtain ⟨m, hm⟩ := hassemble (some [1, 0]) true
    obtain ⟨m', hm'⟩ := hassemble (some [1, 0]) false
    refine ⟨m, m', hm, hm', source_tick hm hm' (fun _ _ _ _ _ => rfl) fun _ => rfl, ?_⟩
    have hversioned : m.isVersioned = true := Manifest.isVersioned_eq (agrees_tick hm)
    have hversioned' : m'.isVersioned = true := Manifest.isVersioned_eq (agrees_tick hm')
    rw [Manifest.key_congr (agrees_tick hm) (by simp [hversioned]),
      Manifest.key_congr (agrees_tick hm') (by simp [hversioned'])]
    decide +kernel
  · obtain ⟨m, hm⟩ := hassemble none true
    obtain ⟨m', hm'⟩ := hassemble (some []) true
    have hsource := source_tick hm hm' (fun _ _ _ _ _ => rfl) fun _ => rfl
    refine ⟨m, m', hm, hm', hsource, fun t h => ?_⟩
    -- What is hashed differs in its length.
    have hlength := congrArg List.length h
    have hversioned : m.isVersioned = false := Manifest.isVersioned_eq (agrees_tick hm)
    have hversioned' : m'.isVersioned = false := Manifest.isVersioned_eq (agrees_tick hm')
    simp only [Manifest.material, Manifest.sourceBytes, hversioned, hversioned', hsource,
      List.length_append, Manifest.encode_congr (agrees_tick hm), Manifest.encode_congr (agrees_tick hm')]
      at hlength
    rw [length_encode_tick, Wire.u64, Wire.u64, length_leBytes, length_leBytes] at hlength
    omega

end Assembly

end OpFusion
