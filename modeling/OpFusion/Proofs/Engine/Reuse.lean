/-
  What is compiled is compiled once.

  Once there is something usable under a key, it stays until the key is invalidated (`stocked_stockAfter`),
  and then there is nothing until somebody asks for the key (`stockAfter_eq_none`). So the toolchain is asked
  again for a key only after it is invalidated. A record that is found unusable is the record of a library
  that could not be opened when it was made (`unusable_iff_spoilt`): it is stored before that is tried.
-/
import OpFusion.Proofs.Engine.History

namespace OpFusion.Engine

variable {e : Engine} {loader : Loader} {c : Stock} {k : Key} {r : Request} {call : Call}
  {calls : List Call} {config : Config} {s : Store} {files : Files}

/-! ## What calls leave -/

/-- A call makes a request for a key. -/
def Call.IsFor (k : Key) (call : Call) : Prop := ∃ r, call.request? = some r ∧ r.key = k

/-- A call makes a request for a key, with a token that is not raised. -/
def Call.Asks (k : Key) (call : Call) : Prop :=
  ∃ r, call.request? = some r ∧ r.key = k ∧ r.raised = false

/-- A call asks for a key or invalidates it. -/
def Call.Touches (k : Key) (call : Call) : Prop := call = .invalidate k ∨ call.Asks k

theorem after_of_untouched (h : ¬ call.Touches k) : call.after loader c k = c k := by
  cases hr : call.request? with
  | some r =>
    rw [Call.after_of_request hr, Request.after]
    split
    · next hasks =>
      rw [Request.asks, Bool.and_eq_true, Bool.not_eq_true'] at hasks
      rw [Function.update_of_ne]
      rintro rfl
      exact h (Or.inr ⟨r, hr, rfl, hasks.1⟩)
    · rfl
  | none =>
    cases call with
    | compile t g raised => rw [Call.after, show Request.of? t g raised = none from hr, Option.elim_none]
    | run t g inputs outputs => rw [Call.after, show Request.of? t g false = none from hr, Option.elim_none]
    | invalidate j =>
      rw [Call.after, Function.update_of_ne]
      rintro rfl
      exact h (Or.inl rfl)
    | clearMemory => rfl
    | restart config => rfl

/-- Under a key that nobody asks for there is nothing new. -/
theorem stockAfter_eq_none (h : c k = none) (hcalls : ∀ call ∈ calls, ¬ call.Asks k) :
    stockAfter loader c calls k = none := by
  induction calls generalizing c with
  | nil => exact h
  | cons call calls ih =>
    rw [List.forall_mem_cons] at hcalls
    refine ih ?_ hcalls.2
    by_cases hcall : call = .invalidate k
    · rw [hcall]
      exact Function.update_self ..
    · rw [after_of_untouched fun htouches => htouches.elim hcall hcalls.1]
      exact h

theorem stocked_after (h : stocked loader c k = true) (hcall : call ≠ .invalidate k) :
    stocked loader (call.after loader c) k = true := by
  by_cases htouches : call.Touches k
  · obtain ⟨r, hr, rfl, -⟩ := htouches.resolve_left hcall
    have hasks : r.asks loader c = false := by simp [Request.asks, h]
    rw [Call.after_of_request hr, Request.after, hasks]
    exact h
  · rw [stocked, after_of_untouched htouches]
    exact h

/-- What is usable stays until its key is invalidated. -/
theorem stocked_stockAfter (h : stocked loader c k = true) (hcalls : .invalidate k ∉ calls) :
    stocked loader (stockAfter loader c calls) k = true := by
  induction calls generalizing c with
  | nil => exact h
  | cons call calls ih =>
    rw [List.mem_cons, not_or] at hcalls
    exact ih (stocked_after h (Ne.symm hcalls.1)) hcalls.2

/-- There is something usable under the key of a request that gives a module. -/
theorem Served.stocked {e' : Engine} {answer : Except Error Loaded} (h : Served loader e e' c r answer)
    (hloader : loader [] = none) (hshort : r.Short) (hok : answer.isOk = true) :
    Engine.stocked loader (r.after loader c) r.key = true := by
  rw [h.answer, Bool.and_eq_true, Bool.or_eq_true, Bool.and_eq_true] at hok
  obtain ⟨hraised, hstocked | ⟨-, hopens⟩⟩ := hok
  · have hasks : r.asks loader c = false := by simp [Request.asks, hstocked]
    rw [Request.after, hasks]
    exact hstocked
  · rw [Request.after]
    split
    · rw [stocked_update_self, usable_record hloader hshort]
      exact hopens
    · next hasks => simpa [Request.asks, hraised] using hasks

/-! ## Compiling once -/

section History

variable (hloader : loader [] = none) (hstart : Engine.start config (some s) files = .ok e)
  (hstore : s.Contents files c) (hshort : ∀ call ∈ calls, call.Short)
  (hsmooth : e.SmoothAll loader calls)
include hloader hstart hstore hshort hsmooth

/-- What is known in the middle of a history. -/
theorem tracks_before {before after : List Call} (hcalls : calls = before ++ after) :
    (e.serveAll loader before).Tracks loader (stockAfter loader c before) ∧
      (e.serveAll loader before).SmoothAll loader after := by
  subst hcalls
  rw [smoothAll_append] at hsmooth
  rw [List.forall_mem_append] at hshort
  exact ⟨(tracks_start hstart hstore).serveAll hloader hshort.1 hsmooth.1, hsmooth.2⟩

/-- What comes of a request in the middle of a history. -/
theorem served_in {before after : List Call} (hcalls : calls = before ++ call :: after)
    (hr : call.request? = some r) :
    ∃ answer, call.compiled? loader (e.serveAll loader before) = some answer ∧
      Served loader (e.serveAll loader before) (e.serveAll loader (before ++ [call]))
        (stockAfter loader c before) r answer := by
  obtain ⟨htracks, hrest⟩ := tracks_before hloader hstart hstore hshort hsmooth hcalls
  rw [serveAll_append]
  exact htracks.serve_request hloader hr (hshort call (by simp [hcalls]) r hr) hrest.1

end History

theorem stockAfter_append_cons (before : List Call) (call : Call) (after : List Call) :
    stockAfter loader c (before ++ call :: after) =
      stockAfter loader (call.after loader (stockAfter loader c before)) after :=
  List.foldl_append

/-- **A module is compiled once.** In every history of calls to engines that share a store which refuses
nothing, of any graphs and with room for any number of modules in memory: once a compilation for a key
has given a module, no call for the key asks the toolchain until the key is invalidated, and the first call
for the key after that does. -/
theorem toolchain_asked_once (hloader : loader [] = none)
    (hstart : Engine.start config (some s) files = .ok e) (hstore : s.Contents files c)
    (hshort : ∀ call ∈ calls, call.Short) (hsmooth : e.SmoothAll loader calls) (k : Key) :
    (∀ (before : List Call) (first : Call) (middle : List Call) (last : Call) (l : Loaded),
      calls = before ++ first :: (middle ++ [last]) → first.IsFor k →
      first.compiled? loader (e.serveAll loader before) = some (.ok l) → .invalidate k ∉ middle →
      last.IsFor k →
      (e.serveAll loader calls).toolchainBuilds =
        (e.serveAll loader (before ++ first :: middle)).toolchainBuilds) ∧
    ∀ (before middle : List Call) (last : Call), calls = before ++ .invalidate k :: (middle ++ [last]) →
      (∀ call ∈ middle, ¬ call.Asks k) → last.Asks k →
      (e.serveAll loader calls).toolchainBuilds =
        (e.serveAll loader (before ++ .invalidate k :: middle)).toolchainBuilds + 1 := by
  constructor
  · rintro before first middle last l hcalls ⟨r, hr, rfl⟩ hfirst hmiddle ⟨r', hr', hkey⟩
    have hsplit : calls = (before ++ first :: middle) ++ [last] := by simp [hcalls]
    obtain ⟨answer, hanswer, hserved⟩ := served_in hloader hstart hstore hshort hsmooth hcalls hr
    obtain ⟨_, -, hlast⟩ := served_in hloader hstart hstore hshort hsmooth hsplit hr'
    cases hfirst.symm.trans hanswer
    have hstocked := hserved.stocked hloader (hshort first (by simp [hcalls]) r hr) rfl
    have hstill : stocked loader (stockAfter loader c (before ++ first :: middle)) r'.key = true := by
      rw [stockAfter_append_cons, hkey, Call.after_of_request hr]
      exact stocked_stockAfter hstocked hmiddle
    have hasks : r'.asks loader (stockAfter loader c (before ++ first :: middle)) = false := by
      simp [Request.asks, hstill]
    rw [hsplit, hlast.builds, hasks]
    rfl
  · rintro before middle last hcalls hmiddle ⟨r, hr, rfl, hraised⟩
    have hsplit : calls = (before ++ .invalidate r.key :: middle) ++ [last] := by simp [hcalls]
    obtain ⟨_, -, hlast⟩ := served_in hloader hstart hstore hshort hsmooth hsplit hr
    have hnone : stocked loader (stockAfter loader c (before ++ .invalidate r.key :: middle)) r.key =
        false := by
      rw [stockAfter_append_cons, stocked, stockAfter_eq_none _ hmiddle]
      · rfl
      · exact Function.update_self ..
    have hasks : r.asks loader (stockAfter loader c (before ++ .invalidate r.key :: middle)) = true := by
      simp [Request.asks, hnone, hraised]
    rw [hsplit, hlast.builds, hasks]
    rfl

/-- Opens what is not empty, and finds functions that do nothing in it. -/
def lenientLoader : Loader := fun library => if library = [] then none else some ⟨some 1, true, true, none⟩

theorem exists_assemble_sum : ∃ m, Assembly.assemble (sumNamed "total") = .ok m := by
  refine Assembly.assemble_of_collect (fun a ha => ⟨.reduceSum .i64, ?_⟩) (by decide +kernel)
  rw [List.mem_singleton.1 ha]
  rfl

/-- A new engine on an empty store in memory. -/
def freshEngine : Engine := restart { config := .standard "/tmp", store := some (.memory {}) }

theorem start_fresh : Engine.start (.standard "/tmp") (some (.memory {})) {} = .ok freshEngine := rfl

theorem contents_fresh : (Store.memory {}).Contents {} fun _ => none := fun _ => rfl

theorem smoothAll_fresh (loader : Loader) (calls : List Call) : freshEngine.SmoothAll loader calls :=
  Sound.smoothAll ⟨rfl, {}, rfl⟩ loader calls

/-- The tools that the sums below are compiled with. -/
def gcc : Identity := ⟨"cc", "14.2.0", ["-O2"]⟩

theorem request_sum {t : Toolchain} {m : Module} (ht : t.identity = .ok gcc)
    (hm : Assembly.assemble (sumNamed "total") = .ok m) (name : String) (raised : Bool) :
    (Call.compile t (sumNamed name) raised).request? = some ⟨t, m, m.key gcc, raised⟩ := by
  rw [Call.request?, Request.of?, show Assembly.assemble (sumNamed name) = .ok m from hm]
  dsimp only
  rw [ht]
  rfl

theorem digest_ne_nil (bytes : List UInt8) : Blake3.digest bytes ≠ [] := by
  intro h
  have hlength := Blake3.length_digest bytes
  rw [h] at hlength
  cases hlength

/-- Calls fit in memory if all that their toolchain makes does. -/
theorem short_of_made {t : Toolchain} (ht : ∀ m k library, made t m k = some library → Wire.Short library)
    (g : Graph) (raised : Bool) (inputs : List Buffer) (outputs : List (Option Buffer)) :
    (Call.compile t g raised).Short ∧ (Call.run t g inputs outputs).Short := by
  have hof : ∀ raised r, Request.of? t g raised = some r → r.Short := by
    intro raised r hr
    unfold Request.of? at hr
    split at hr
    · cases hr
    · split at hr
      · cases hr
      · cases hr
        exact ht _ _
  exact ⟨hof raised, hof false⟩

theorem identity_digest : digestTools.toolchain.identity = .ok gcc := rfl

theorem short_digest (m : Module) (k : Key) (library : List UInt8)
    (hmade : made digestTools.toolchain m k = some library) : Wire.Short library := by
  cases hmade
  rw [Wire.Short, Blake3.length_digest]
  decide

theorem opens_lenient (m : Module) (k : Key) {library : List UInt8} (h : library ≠ []) :
    opens lenientLoader m k library = true := by
  simp [opens, Loaded.openArtifact, lenientLoader, Module.artifact, Artifact.new, h, Loaded.start,
    Module.abiVersion, Except.isOk, Except.toBool]

/-- The first compilation of a sum gives a module. -/
theorem compiled_digest {m : Module} (hm : Assembly.assemble (sumNamed "total") = .ok m) :
    ∃ l, (Call.compile digestTools.toolchain (sumNamed "total") false).compiled? lenientLoader
      freshEngine = some (.ok l) := by
  have htracks : freshEngine.Tracks lenientLoader fun _ => none := tracks_start start_fresh contents_fresh
  have hsmooth : freshEngine.Smooth lenientLoader
      (.compile digestTools.toolchain (sumNamed "total") false) := (smoothAll_fresh _ [_]).1
  have hr := request_sum identity_digest hm "total" false
  have hshort := (short_of_made short_digest _ _ [] []).1 _ hr
  obtain ⟨answer, hanswer, hserved⟩ := htracks.serve_request rfl hr hshort hsmooth
  have hmade : made digestTools.toolchain m (m.key gcc) =
      some (Blake3.digest (Utf8.bytesOf m.source)) := rfl
  have hok : answer.isOk = true := by
    rw [hserved.answer, hmade, Option.any_some, opens_lenient _ _ (digest_ne_nil _)]
    rfl
  obtain ⟨l, rfl⟩ := Outcome.isOk_iff.1 hok
  exact ⟨l, hanswer⟩

/-- A sum that was compiled, forgotten in memory by one engine and asked for under another name of the next
one is not compiled again. After its key is invalidated it is, by the first request whose token is not
raised. -/
theorem toolchain_asked_once_sum :
    ∃ m, Assembly.assemble (sumNamed "total") = .ok m ∧
      (freshEngine.serveAll lenientLoader
        [.compile digestTools.toolchain (sumNamed "total") false, .clearMemory,
          .restart (.standard "/var"),
          .run digestTools.toolchain (sumNamed "sum") [] []]).toolchainBuilds = 0 ∧
      (freshEngine.serveAll lenientLoader
        [.compile digestTools.toolchain (sumNamed "total") false, .invalidate (m.key gcc),
          .compile digestTools.toolchain (sumNamed "sum") true,
          .compile digestTools.toolchain (sumNamed "sum") false]).toolchainBuilds =
        (freshEngine.serveAll lenientLoader
          [.compile digestTools.toolchain (sumNamed "total") false, .invalidate (m.key gcc),
            .compile digestTools.toolchain (sumNamed "sum") true]).toolchainBuilds + 1 := by
  obtain ⟨m, hm⟩ := exists_assemble_sum
  obtain ⟨l, hl⟩ := compiled_digest hm
  have hsum := request_sum identity_digest hm
  have hcompile : ∀ g raised, (Call.compile digestTools.toolchain g raised).Short :=
    fun g raised => (short_of_made short_digest g raised [] []).1
  have hrun : ∀ g, (Call.run digestTools.toolchain g [] []).Short :=
    fun g => (short_of_made short_digest g false [] []).2
  refine ⟨m, hm, ?_, ?_⟩
  · refine (toolchain_asked_once rfl start_fresh contents_fresh ?_ (smoothAll_fresh _ _) (m.key gcc)).1
      [] _ [.clearMemory, .restart (.standard "/var")] _ l rfl ⟨_, hsum "total" false, rfl⟩ hl (by simp)
      ⟨_, hsum "sum" false, rfl⟩
    simp [hcompile, hrun]
  · refine (toolchain_asked_once rfl start_fresh contents_fresh ?_ (smoothAll_fresh _ _) (m.key gcc)).2
      [_] [.compile digestTools.toolchain (sumNamed "sum") true] _ rfl ?_ ⟨_, hsum "sum" false, rfl, rfl⟩
    · simp [hcompile]
    · rintro call hcall ⟨r, hr, -, hraised⟩
      rw [List.mem_singleton.1 hcall, hsum] at hr
      cases hr
      cases hraised

/-! ## Records of libraries that cannot be opened -/

/-- A call for a key fails although the toolchain makes a library for it, which cannot be opened. -/
def Spoils (loader : Loader) (e : Engine) (k : Key) (call : Call) : Prop :=
  ∃ r answer library, call.request? = some r ∧ r.key = k ∧ r.raised = false ∧
    call.compiled? loader e = some answer ∧ answer.isOk = false ∧
    made r.toolchain r.module r.key = some library ∧ opens loader r.module r.key library = false

/-- The last call of some that asked for a key, or invalidated it, spoilt it. -/
def Spoilt (loader : Loader) (e : Engine) (k : Key) (calls : List Call) : Prop :=
  ∃ before first after, calls = before ++ first :: after ∧
    Spoils loader (e.serveAll loader before) k first ∧ ∀ call ∈ after, ¬ call.Touches k

theorem spoilt_nil : ¬ Spoilt loader e k [] := by
  rintro ⟨before, first, after, hcalls, -⟩
  simp at hcalls

theorem spoilt_concat {last : Call} :
    Spoilt loader e k (calls ++ [last]) ↔
      Spoils loader (e.serveAll loader calls) k last ∨ (Spoilt loader e k calls ∧ ¬ last.Touches k) := by
  constructor
  · rintro ⟨before, first, after, hcalls, hspoils, hafter⟩
    rcases List.eq_nil_or_concat after with rfl | ⟨after, call, rfl⟩
    · obtain ⟨rfl, hlast⟩ := List.append_inj' hcalls rfl
      rw [List.singleton_inj.1 hlast]
      exact Or.inl hspoils
    · rw [List.concat_eq_append] at hcalls hafter
      rw [← List.cons_append, ← List.append_assoc] at hcalls
      obtain ⟨hbefore, hlast⟩ := List.append_inj' hcalls rfl
      rw [List.singleton_inj.1 hlast]
      rw [List.forall_mem_append, List.forall_mem_singleton] at hafter
      exact Or.inr ⟨⟨before, first, after, hbefore, hspoils, hafter.1⟩, hafter.2⟩
  · rintro (hspoils | ⟨⟨before, first, after, rfl, hspoils, hafter⟩, hlast⟩)
    · exact ⟨calls, last, [], rfl, hspoils, by simp⟩
    · refine ⟨before, first, after ++ [last], by simp, hspoils, ?_⟩
      rw [List.forall_mem_append, List.forall_mem_singleton]
      exact ⟨hafter, hlast⟩

/-- There is a record under a key, and it is unusable. -/
def unusable (loader : Loader) (c : Stock) (k : Key) : Bool := (c k).isSome && !stocked loader c k

/-- A request leaves an unusable record if the library that is made for it cannot be opened. -/
theorem Served.unusable {e' : Engine} {answer : Except Error Loaded} (h : Served loader e e' c r answer)
    (hloader : loader [] = none) (hshort : r.Short) (hraised : r.raised = false) :
    Engine.unusable loader (r.after loader c) r.key = true ↔
      answer.isOk = false ∧ ∃ library, made r.toolchain r.module r.key = some library ∧
        opens loader r.module r.key library = false := by
  have hanswer := h.answer
  rw [hraised, Bool.not_false, Bool.true_and] at hanswer
  cases hstocked : Engine.stocked loader c r.key with
  | true =>
    have hasks : r.asks loader c = false := by simp [Request.asks, hstocked]
    rw [hstocked, Bool.true_or] at hanswer
    rw [Request.after, hasks, hanswer]
    simp [Engine.unusable, hstocked]
  | false =>
    have hasks : r.asks loader c = true := by simp [Request.asks, hraised, hstocked]
    have hafter : r.after loader c =
        Function.update c r.key (record r.toolchain r.module r.key) := by rw [Request.after, if_pos hasks]
    rw [hstocked, Bool.false_or] at hanswer
    rw [hafter, Engine.unusable, stocked_update_self, usable_record hloader hshort, Function.update_self,
      hanswer, record]
    cases made r.toolchain r.module r.key with
    | none => simp
    | some library => cases hopens : opens loader r.module r.key library <;> simp [hopens]

/-- **A record is unusable if and only if it was stored by a call that could not open its own library.** -/
theorem unusable_iff_spoilt (hloader : loader [] = none)
    (hstart : Engine.start config (some s) files = .ok e) (hstore : s.Contents files fun _ => none)
    (hshort : ∀ call ∈ calls, call.Short) (hsmooth : e.SmoothAll loader calls) (k : Key) :
    unusable loader (stockAfter loader (fun _ => none) calls) k = true ↔ Spoilt loader e k calls := by
  induction calls using List.reverseRecOn with
  | nil => exact iff_of_false (by simp [unusable, stockAfter]) spoilt_nil
  | append_singleton calls last ih =>
    have hshort' : ∀ call ∈ calls, call.Short := fun call hcall => hshort call (by simp [hcall])
    replace ih := ih hshort' (smoothAll_append.1 hsmooth).1
    rw [spoilt_concat, stockAfter_append_cons]
    show unusable loader (last.after loader (stockAfter loader (fun _ => none) calls)) k = true ↔ _
    by_cases htouches : last.Touches k
    · rw [or_iff_left fun h => h.2 htouches]
      rcases htouches with rfl | ⟨r, hr, rfl, hraised⟩
      · refine iff_of_false ?_ ?_
        · simp [unusable, Call.after]
        · rintro ⟨r, -, -, hr, -⟩
          cases hr
      · obtain ⟨answer, hanswer, hserved⟩ := served_in hloader hstart hstore hshort hsmooth rfl hr
        rw [Call.after_of_request hr, hserved.unusable hloader (hshort last (by simp) r hr) hraised]
        constructor
        · rintro ⟨hfailed, library, hmade, hopens⟩
          exact ⟨r, answer, library, hr, rfl, hraised, hanswer, hfailed, hmade, hopens⟩
        · rintro ⟨r', answer', library, hr', -, -, hanswer', hfailed, hmade, hopens⟩
          cases hr.symm.trans hr'
          cases hanswer.symm.trans hanswer'
          exact ⟨hfailed, library, hmade, hopens⟩
    · have hsame : unusable loader (last.after loader (stockAfter loader (fun _ => none) calls)) k =
          unusable loader (stockAfter loader (fun _ => none) calls) k := by
        rw [unusable, stocked, after_of_untouched htouches, unusable, stocked]
      rw [hsame, ih]
      constructor
      · exact fun h => Or.inr ⟨h, htouches⟩
      · rintro (⟨r, answer, library, hr, hkey, hraised, -⟩ | h)
        · exact absurd (Or.inr ⟨r, hr, hkey, hraised⟩) htouches
        · exact h.1

/-- What a call counts: a record that is found unusable, if it asks for a key that was spoilt. -/
theorem corruptEntries_concat {last : Call} (hloader : loader [] = none)
    (hstart : Engine.start config (some s) files = .ok e) (hstore : s.Contents files fun _ => none)
    (hshort : ∀ call ∈ calls ++ [last], call.Short) (hsmooth : e.SmoothAll loader (calls ++ [last])) :
    ((∃ k, last.Asks k ∧ Spoilt loader e k calls) ∧
      (e.serveAll loader (calls ++ [last])).corruptEntries =
        (e.serveAll loader calls).corruptEntries + 1) ∨
    ((¬ ∃ k, last.Asks k ∧ Spoilt loader e k calls) ∧
      (e.serveAll loader (calls ++ [last])).corruptEntries ≤
        (e.serveAll loader calls).corruptEntries) := by
  have hshort' : ∀ call ∈ calls, call.Short := fun call hcall => hshort call (by simp [hcall])
  have hsmooth' := (smoothAll_append.1 hsmooth).1
  cases hr : last.request? with
  | none =>
    obtain ⟨htracks, hrest⟩ := tracks_before hloader hstart hstore hshort hsmooth rfl
    refine Or.inr ⟨?_, ?_⟩
    · rintro ⟨k, ⟨r, hr', -⟩, -⟩
      rw [hr] at hr'
      cases hr'
    · rw [serveAll_append]
      exact (htracks.serve_other hr hrest.1).2
  | some r =>
    obtain ⟨_, -, hserved⟩ := served_in hloader hstart hstore hshort hsmooth rfl hr
    have hspoilt := unusable_iff_spoilt hloader hstart hstore hshort' hsmooth' r.key
    have hcount : (r.asks loader (stockAfter loader (fun _ => none) calls) &&
        (stockAfter loader (fun _ => none) calls r.key).isSome) =
          (!r.raised && unusable loader (stockAfter loader (fun _ => none) calls) r.key) := by
      rw [Request.asks, unusable, Bool.and_assoc, Bool.and_comm (!stocked ..)]
    have hiff : (∃ k, last.Asks k ∧ Spoilt loader e k calls) ↔
        (!r.raised && unusable loader (stockAfter loader (fun _ => none) calls) r.key) = true := by
      rw [Bool.and_eq_true, Bool.not_eq_true', hspoilt]
      constructor
      · rintro ⟨k, ⟨r', hr', rfl, hraised⟩, hk⟩
        cases hr.symm.trans hr'
        exact ⟨hraised, hk⟩
      · rintro ⟨hraised, hk⟩
        exact ⟨r.key, ⟨r, hr, rfl, hraised⟩, hk⟩
    rw [hserved.corrupt, hcount, hiff]
    cases !r.raised && unusable loader (stockAfter loader (fun _ => none) calls) r.key <;> simp

/-- **An unusable record is one whose library could not be opened when it was made.** In every history of
calls to engines that share a store which was empty and refuses nothing, with any toolchains: a call counts
an unusable record if and only if the last call that asked for its key failed although its toolchain made a
library, which could not be opened, and the key was not invalidated since. So if all libraries that are
made can be opened, none is counted. -/
theorem corruptEntries_iff_spoilt (hloader : loader [] = none)
    (hstart : Engine.start config (some s) files = .ok e) (hstore : s.Contents files fun _ => none)
    (hshort : ∀ call ∈ calls, call.Short) (hsmooth : e.SmoothAll loader calls) :
    (∀ (before : List Call) (last : Call), calls = before ++ [last] →
      ((∃ k, last.Asks k ∧ Spoilt loader e k before) ∧
        (e.serveAll loader calls).corruptEntries = (e.serveAll loader before).corruptEntries + 1) ∨
      ((¬ ∃ k, last.Asks k ∧ Spoilt loader e k before) ∧
        (e.serveAll loader calls).corruptEntries ≤ (e.serveAll loader before).corruptEntries)) ∧
    ((∀ call ∈ calls, ∀ (r : Request) (library : List UInt8), call.request? = some r →
        made r.toolchain r.module r.key = some library → opens loader r.module r.key library = true) →
      (e.serveAll loader calls).corruptEntries = 0) := by
  constructor
  · rintro before last rfl
    exact corruptEntries_concat hloader hstart hstore hshort hsmooth
  · intro hopens
    induction calls using List.reverseRecOn with
    | nil =>
      unfold Engine.start at hstart
      split at hstart
      · cases hstart
        rfl
      · cases hstart
    | append_singleton calls last ih =>
      have hbefore := ih (fun call hcall => hshort call (by simp [hcall])) (smoothAll_append.1 hsmooth).1
        fun call hcall => hopens call (by simp [hcall])
      rcases corruptEntries_concat hloader hstart hstore hshort hsmooth with ⟨⟨k, -, hspoilt⟩, -⟩ | ⟨-, hle⟩
      · -- the call that spoilt the key made a library that cannot be opened
        obtain ⟨before, first, after, rfl, ⟨r, answer, library, hr, -, -, -, -, hmade, hfails⟩, -⟩ := hspoilt
        rw [hopens first (by simp) r library hr hmade] at hfails
        cases hfails
      · omega

/-- A toolchain that makes garbage. -/
def garbageToolchain : Toolchain := .scripted gcc { garbage := some [1, 2, 3] }

/-- A request for a sum to that toolchain. -/
def compileGarbage : Call := .compile garbageToolchain (sumNamed "total") false

/-- Opens libraries of the usual size with functions that do nothing. -/
def strictLoader : Loader := Library.loader Library.usualSize fun _ => none

theorem strictLoader_nil : strictLoader [] = none := rfl

theorem short_garbage : compileGarbage.Short := by
  refine (short_of_made (fun m k library hmade => ?_) _ _ [] []).1
  cases hmade
  rw [Wire.Short]
  decide

theorem request_garbage {m : Module} (hm : Assembly.assemble (sumNamed "total") = .ok m) :
    compileGarbage.request? = some ⟨garbageToolchain, m, m.key gcc, false⟩ :=
  request_sum rfl hm "total" false

theorem asks_garbage {m : Module} (hm : Assembly.assemble (sumNamed "total") = .ok m) :
    compileGarbage.Asks (m.key gcc) := ⟨_, request_garbage hm, rfl, rfl⟩

/-- Garbage spoils a key. -/
theorem spoilt_garbage {m : Module} (hm : Assembly.assemble (sumNamed "total") = .ok m) :
    Spoilt strictLoader freshEngine (m.key gcc) [compileGarbage] := by
  have htracks : freshEngine.Tracks strictLoader fun _ => none := tracks_start start_fresh contents_fresh
  have hsmooth : freshEngine.Smooth strictLoader compileGarbage := (smoothAll_fresh _ [_]).1
  have hr := request_garbage hm
  obtain ⟨answer, hanswer, hserved⟩ :=
    htracks.serve_request strictLoader_nil hr (short_garbage _ hr) hsmooth
  have hfailed : answer.isOk = false := hserved.answer
  exact ⟨[], _, [], rfl, ⟨_, answer, [1, 2, 3], hr, rfl, rfl, hanswer, hfailed, rfl, rfl⟩, by simp⟩

/-- The record of garbage for a sum is found unusable by the next engine that is asked for the sum; digests
never are. -/
theorem corruptEntries_iff_spoilt_restart :
    (freshEngine.serveAll strictLoader
      [compileGarbage, .restart (.standard "/var"), compileGarbage]).corruptEntries = 1 ∧
    (freshEngine.serveAll lenientLoader
      [.compile digestTools.toolchain (sumNamed "total") false, .clearMemory,
        .run digestTools.toolchain (sumNamed "sum") [] []]).corruptEntries = 0 := by
  obtain ⟨m, hm⟩ := exists_assemble_sum
  constructor
  · have hspoilt : Spoilt strictLoader freshEngine (m.key gcc)
        ([compileGarbage] ++ [.restart (.standard "/var")]) := by
      refine spoilt_concat.2 (Or.inr ⟨spoilt_garbage hm, ?_⟩)
      rintro (h | ⟨r, hr, -⟩)
      · cases h
      · cases hr
    have hcounts := (corruptEntries_iff_spoilt strictLoader_nil start_fresh contents_fresh
      (by simp [short_garbage]) (smoothAll_fresh _ _)).1 [compileGarbage, .restart (.standard "/var")]
      compileGarbage rfl
    rcases hcounts with ⟨-, heq⟩ | ⟨hnone, -⟩
    · exact heq
    · exact absurd ⟨m.key gcc, asks_garbage hm, hspoilt⟩ hnone
  · have hshort := fun g => short_of_made short_digest g false [] []
    refine (corruptEntries_iff_spoilt rfl start_fresh contents_fresh
      (by simp [hshort]) (smoothAll_fresh _ _)).2 ?_
    have hopens : ∀ (name : String) (r : Request) (library : List UInt8),
        Request.of? digestTools.toolchain (sumNamed name) false = some r →
        made r.toolchain r.module r.key = some library →
        opens lenientLoader r.module r.key library = true := by
      intro name r library hr hmade
      cases (request_sum identity_digest hm name false).symm.trans hr
      cases hmade
      exact opens_lenient _ _ (digest_ne_nil _)
    simp only [List.forall_mem_cons, List.not_mem_nil, false_implies, implies_true, and_true]
    refine ⟨hopens "total", fun r library hr => ?_, hopens "sum"⟩
    cases hr

/-- **The record of a library that cannot be opened is called corrupt by the engine that stored it**, on an
empty store that refuses nothing. -/
theorem corruptEntries_garbage :
    Engine.start (.standard "/tmp") (some (.memory {})) {} = .ok freshEngine ∧
      freshEngine.SmoothAll strictLoader [compileGarbage, compileGarbage] ∧
      (freshEngine.serveAll strictLoader [compileGarbage, compileGarbage]).corruptEntries = 1 := by
  obtain ⟨m, hm⟩ := exists_assemble_sum
  have hshort : ∀ calls : List Call, (∀ call ∈ calls, call = compileGarbage) →
      ∀ call ∈ calls, call.Short := fun calls hcalls call hcall => hcalls call hcall ▸ short_garbage
  have hone : (freshEngine.serveAll strictLoader [compileGarbage]).corruptEntries = 0 := by
    rcases corruptEntries_concat strictLoader_nil start_fresh contents_fresh
      (hshort ([] ++ [compileGarbage]) (by simp)) (smoothAll_fresh _ _) with ⟨⟨k, -, hspoilt⟩, -⟩ | ⟨-, hle⟩
    · exact absurd hspoilt spoilt_nil
    · exact Nat.le_zero.1 hle
  refine ⟨start_fresh, smoothAll_fresh _ _, ?_⟩
  rcases corruptEntries_concat strictLoader_nil start_fresh contents_fresh
    (hshort ([compileGarbage] ++ [compileGarbage]) (by simp)) (smoothAll_fresh _ _) with ⟨-, heq⟩ | ⟨hnone, -⟩
  · rw [hone] at heq
    exact heq
  · exact absurd ⟨m.key gcc, asks_garbage hm, spoilt_garbage hm⟩ hnone

end OpFusion.Engine
