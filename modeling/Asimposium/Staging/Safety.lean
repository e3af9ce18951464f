import Asimposium.Staging.Holds

/-!
# Cleanup respects holds

What a step can do to an operation, to an object and to the mark of a row,
and from the invariant what holds in every run: of held uploads, of
presigned ones, of the deletes under way, and of the mark.
-/

namespace Asimposium.Staging

/-! ## What a step does -/

theorem Step.cleanup {w w' : World} (h : Step w w') {n : Nat} {c' : Cleanup}
    (hc' : w'.cleanups n = some c') :
    c'.phase = .begun ∨ ∃ c, w.cleanups n = some c ∧ c.Continues c' := by
  cases h with
  | marked i m o keys now site hmain hrun hfresh =>
      rw [World.cleanups_setCleanup] at hc'
      split at hc'
      · cases hc'
        exact .inl rfl
      · exact .inr ⟨c', hc', .refl c'⟩
  | deadline i m o c clock hmain hcleanup hbegun =>
      exact .inr (setCleanup_back (w := w.setMain i _) hcleanup (deadline_continues hbegun) hc')
  | crashCleanup m c hcleanup => exact .inr (setCleanup_back hcleanup (crash_continues c) hc')
  | proceed m c d clock hcleanup hproceed =>
      exact .inr (setCleanup_back hcleanup (proceed_continues hproceed) hc')
  | settle m c batch ok clock hcleanup hphase =>
      exact .inr (setCleanup_back hcleanup (settle_continues ok clock hphase) hc')
  | settleOrphaned m c batch hcleanup hphase =>
      exact .inr (setCleanup_back hcleanup (ended_continues c none _) hc')
  | acknowledged m c ok finished site matched hcleanup hphase hrun =>
      exact .inr (setCleanup_back (w := w.setSite _ _) hcleanup
        (ended_continues c _ c.answered) hc')
  | acknowledgementLost m c ok finished site matched hcleanup hphase hrun =>
      exact .inr (setCleanup_back (w := w.setSite _ _) hcleanup
        (ended_continues c none c.answered) hc')
  | acknowledgementFailed m c ok finished hcleanup hphase =>
      exact .inr (setCleanup_back hcleanup (ended_continues c none c.answered) hc')
  | _ => exact .inr ⟨c', hc', .refl c'⟩

theorem Step.erases {w w' : World} (h : Step w w') {key : Key} (hbefore : w.objects key = true)
    (hafter : w'.objects key = false) : ∃ n c, w.cleanups n = some c ∧ key ∈ c.outstanding := by
  cases h with
  | erase n c k hcleanup hkey =>
      rw [World.objects_setObject] at hafter
      split at hafter
      · rename_i hsame
        exact ⟨n, c, hcleanup, hsame ▸ hkey⟩
      · rw [hbefore] at hafter
        cases hafter
  | put k =>
      rw [World.objects_setObject] at hafter
      split at hafter
      · cases hafter
      · rw [hbefore] at hafter
        cases hafter
  | _ => exact absurd (hbefore.symm.trans hafter) Bool.false_ne_true.symm

theorem cleared_at {w : World} {uploadId u : String} {site₁ : Option Site} {site site' : Site}
    (hbefore : w.db u = some site) (hafter : (w.setSite uploadId site₁).db u = some site')
    (hpending : site.retention.deletionPending = true)
    (hcleared : site'.retention.deletionPending = false) :
    uploadId = u ∧ site₁ = some site' := by
  rw [World.db_setSite] at hafter
  split at hafter
  · rename_i hu
    exact ⟨hu.symm, hafter⟩
  · rw [hbefore] at hafter
    cases hafter
    exact absurd (hpending.symm.trans hcleared) Bool.false_ne_true.symm

theorem not_cleared {w : World} {uploadId u : String} {statement : Statement}
    {site₁ : Option Site} {matched : Bool} {site site' : Site}
    (hnot : ∀ token, statement.acknowledges token = false)
    (hrun : statement.run (w.db uploadId) = some (site₁, matched))
    (hbefore : w.db u = some site) (hafter : (w.setSite uploadId site₁).db u = some site')
    (hpending : site.retention.deletionPending = true) :
    site'.retention.deletionPending = true := by
  by_contra hnot'
  obtain ⟨rfl, rfl⟩ := cleared_at hbefore hafter hpending (Bool.not_eq_true _ ▸ hnot')
  rw [hbefore] at hrun
  obtain ⟨new, hnew, hexec⟩ := run_some hrun
  cases hnew
  exact hnot' (exec_pending hnot hpending hexec)

theorem Step.clears {w w' : World} (h : Step w w') {u : String} {site site' : Site}
    (hbefore : w.db u = some site) (hafter : w'.db u = some site')
    (hpending : site.retention.deletionPending = true)
    (hcleared : site'.retention.deletionPending = false) :
    ∃ n c ok finished, w.cleanups n = some c ∧ c.uploadId = u ∧ c.phase = .settled ok finished := by
  have hsame (heq : w'.db = w.db) : False := by
    rw [heq, hbefore] at hafter
    cases hafter
    exact Bool.false_ne_true (hcleared.symm.trans hpending)
  have hstatement {uploadId : String} {statement : Statement} {site₁ : Option Site}
      {matched : Bool} (hnot : ∀ token, statement.acknowledges token = false)
      (hrun : statement.run (w.db uploadId) = some (site₁, matched))
      (heq : w'.db = (w.setSite uploadId site₁).db) : False :=
    Bool.false_ne_true
      (hcleared.symm.trans (not_cleared hnot hrun hbefore (heq ▸ hafter) hpending))
  cases h with
  | acknowledged n c ok finished site₁ matched hcleanup hphase hrun =>
      have hafter : (w.setSite c.uploadId site₁).db u = some site' := hafter
      exact ⟨n, c, ok, finished, hcleanup, (cleared_at hbefore hafter hpending hcleared).1, hphase⟩
  | acknowledgementLost n c ok finished site₁ matched hcleanup hphase hrun =>
      have hafter : (w.setSite c.uploadId site₁).db u = some site' := hafter
      exact ⟨n, c, ok, finished, hcleanup, (cleared_at hbefore hafter hpending hcleared).1, hphase⟩
  | answered i uploadId statement site₁ matched clock hmain hrun hnot =>
      exact (hstatement (statement_not_acknowledges hmain) hrun rfl).elim
  | answerLost i uploadId statement site₁ matched clock hmain hrun =>
      exact (hstatement (statement_not_acknowledges hmain) hrun rfl).elim
  | marked i n o keys now site₁ hmain hrun hfresh =>
      exact (hstatement (fun _ => rfl) hrun rfl).elim
  | hold uploadId held site₁ hrun => exact (hstatement (fun _ => rfl) hrun rfl).elim
  | manifest uploadId selected row site₁ matched hrun =>
      exact (hstatement (fun _ => rfl) hrun rfl).elim
  | create uploadId row hfresh hstate =>
      obtain ⟨rfl, -⟩ := cleared_at hbefore hafter hpending hcleared
      rw [hfresh] at hbefore
      cases hbefore
  | record uploadId old renewals parts hsite =>
      obtain ⟨rfl, heq⟩ := cleared_at hbefore hafter hpending hcleared
      rw [hbefore] at hsite
      cases hsite
      cases heq
      exact absurd (hpending.symm.trans hcleared) Bool.false_ne_true.symm
  | _ => exact (hsame rfl).elim

/-! ## Every run -/

structure World.Quiet (w : World) : Prop where
  mains : ∀ i, w.mains i = .idle
  cleanups : ∀ n, w.cleanups n = none

theorem inv_run {start w : World} (hquiet : start.Quiet) (hrun : Run start w) : Inv w := by
  induction hrun with
  | refl =>
      refine ⟨fun n c hc => ?_, fun n m c d hc => ?_, fun n c hc => ?_, fun i o keys now h => ?_⟩
      · rw [hquiet.cleanups] at hc
        cases hc
      · rw [hquiet.cleanups] at hc
        cases hc
      · rw [hquiet.cleanups] at hc
        cases hc
      · rw [hquiet.mains] at h
        cases h
  | tail _ hstep ih => exact ih.step hstep

/-- What is promised of a state and of every step out of it. -/
structure CleanupSafe (w : World) : Prop where
  /-- No delete of a held upload is under way, and none is sent. -/
  held : ∀ uploadId site, w.db uploadId = some site → site.retention.held = true →
    ¬w.Outstanding uploadId ∧ ∀ w', Step w w' → ¬w'.Outstanding uploadId
  /-- An object that is deleted is that of an upload no longer presigned. -/
  presigned : ∀ w' key, Step w w' → w.objects key = true → w'.objects key = false →
    ∃ site, w.db key.uploadId = some site ∧ site.upload.state ≠ .presigned
  /-- No two operations have a delete of one upload under way. -/
  single : ∀ n m c d, w.cleanups n = some c → w.cleanups m = some d → c.outstanding ≠ [] →
    d.outstanding ≠ [] → c.uploadId = d.uploadId → n = m
  /-- A mark is taken off by the owner of the row alone, when its delete has
  settled. -/
  cleared : ∀ w' uploadId site site', Step w w' → w.db uploadId = some site →
    w'.db uploadId = some site' → site.retention.deletionPending = true →
    site'.retention.deletionPending = false →
    ∃ n c ok finished, w.cleanups n = some c ∧ c.uploadId = uploadId
      ∧ leasedTo c.token site.retention.lease = true ∧ c.phase = .settled ok finished
      ∧ c.answered ≠ [] ∧ ¬w.Outstanding uploadId

namespace Inv

variable {w : World}

theorem outstanding (h : Inv w) {uploadId : String} (hout : w.Outstanding uploadId) :
    ∃ n c, w.cleanups n = some c ∧ c.live = true ∧ c.uploadId = uploadId ∧ c.outstanding ≠ [] := by
  obtain ⟨n, c, key, hc, hkey, hupload⟩ := hout
  obtain ⟨hlive, hsame⟩ := outstanding_upload (h.tidy n c hc) hkey
  exact ⟨n, c, hc, hlive, hsame.symm.trans hupload, List.ne_nil_of_mem hkey⟩

theorem live_of_outstanding {c : Cleanup} (h : c.outstanding ≠ []) : c.live = true := by
  unfold Cleanup.outstanding at h
  unfold Cleanup.live
  cases hphase : c.phase with
  | ended result =>
      rw [hphase] at h
      exact absurd rfl h
  | _ => rfl

theorem not_held (h : Inv w) {n : Nat} {c : Cleanup} (hc : w.cleanups n = some c)
    (hlive : c.live = true) {site : Site} (hsite : w.db c.uploadId = some site) :
    site.retention.held = false := by
  obtain ⟨site', hsite', hlocked⟩ := h.locked n c hc hlive
  rw [hsite] at hsite'
  cases hsite'
  exact hlocked.free

theorem safe (h : Inv w) : CleanupSafe w := by
  refine ⟨fun uploadId site hsite hheld => ⟨fun hout => ?_, fun w' hstep hout => ?_⟩,
    fun w' key hstep hbefore hafter => ?_, fun n m c d hc hd hcout hdout heq => ?_,
    fun w' uploadId site site' hstep hbefore hafter hpending hcleared => ?_⟩
  · obtain ⟨n, c, hc, hlive, rfl, -⟩ := h.outstanding hout
    exact Bool.false_ne_true ((h.not_held hc hlive hsite).symm.trans hheld)
  · -- what is under way after the step was live before it
    obtain ⟨n, c', hc', hlive', rfl, hnonempty⟩ := (h.step hstep).outstanding hout
    rcases hstep.cleanup hc' with hbegun | ⟨c, hc, hcont⟩
    · rw [Cleanup.outstanding, hbegun] at hnonempty
      exact hnonempty rfl
    · rw [hcont.uploadId] at hsite
      exact Bool.false_ne_true ((h.not_held hc (hcont.live hlive') hsite).symm.trans hheld)
  · obtain ⟨n, c, hc, hkey⟩ := hstep.erases hbefore hafter
    obtain ⟨hlive, hsame⟩ := outstanding_upload (h.tidy n c hc) hkey
    obtain ⟨site, hsite, hlocked⟩ := h.locked n c hc hlive
    exact ⟨site, hsame ▸ hsite, hlocked.terminal⟩
  · exact h.alone n m c d hc hd (live_of_outstanding hcout) (live_of_outstanding hdout) heq
  · obtain ⟨n, c, ok, finished, hc, rfl, hphase⟩ :=
      hstep.clears hbefore hafter hpending hcleared
    have hlive : c.live = true := by simp [Cleanup.live, hphase]
    obtain ⟨row, hrow, hlocked⟩ := h.locked n c hc hlive
    rw [hbefore] at hrow
    cases hrow
    have hanswered := (h.tidy n c hc).phase
    rw [hphase] at hanswered
    refine ⟨n, c, ok, finished, hc, rfl, hlocked.leased, hphase, hanswered, fun hout => ?_⟩
    obtain ⟨m, d, hd, hdlive, heq, hnonempty⟩ := h.outstanding hout
    obtain rfl := h.alone n m c d hc hd hlive hdlive heq.symm
    rw [hc] at hd
    cases hd
    rw [Cleanup.outstanding, hphase] at hnonempty
    exact hnonempty rfl

end Inv

/-- In every run of the sweep, of the cleanups after a completion, of the
operator and of the bucket, the deletes keep to what the rows say. -/
theorem cleanup_respects_holds {start w : World} (hquiet : start.Quiet) (hrun : Run start w) :
    CleanupSafe w :=
  (inv_run hquiet hrun).safe

/-! ## A run -/

def sampleToken : String := "0123456789abcdef0123456789abcdef"

def sampleSite : Site :=
  ⟨⟨.verified, 1000, 86401000, 901000, none⟩, [], [], ⟨some 86461000, false, false, 0, none, none⟩⟩

def sampleStart : World where
  db := fun uploadId => if uploadId = "AU" then some sampleSite else none
  mains := fun _ => .idle
  cleanups := fun _ => none
  objects := fun key => key == artifactStagingKey "AU"

def sampleLeased (marked : Bool) : Site :=
  { sampleSite with
    retention := { sampleSite.retention with
      lease := some ⟨sampleToken, 62000⟩, deletionPending := marked } }

theorem sample_outstanding : ∃ w, Run sampleStart w ∧ w.Outstanding "AU"
    ∧ w.db "AU" = some (sampleLeased true) := by
  let o : Owner := ⟨"AU", sampleToken, false, []⟩
  have hlease : (Statement.leaseRequest sampleToken 2000).run (some sampleSite)
      = some (some (sampleLeased false), true) := by decide +kernel
  have hmark : (Statement.beginDeletion sampleToken 2000 false).run (some (sampleLeased false))
      = some (some (sampleLeased true), true) := by decide +kernel
  let asked := sampleStart.setMain 0 (.lease o 2000)
  let leased := (asked.setSite "AU" (some (sampleLeased false))).setMain 0 (.parts o)
  let marking := leased.setMain 0 (.marking o (stagingKeys "AU" []) 2000)
  let marked := ((marking.setSite "AU" (some (sampleLeased true))).setMain 0 (.racing o 0)).setCleanup
    0 ⟨"AU", sampleToken, false, stagingKeys "AU" [], false, .begun, []⟩
  have hasked : Step sampleStart asked := .beginRequest _ 0 "AU" sampleToken 2000 rfl
  have hleased : Step asked leased :=
    .answered _ 0 "AU" (.leaseRequest sampleToken 2000) _ true 2000 rfl hlease
      fun _ _ _ _ h => by cases h
  have hread : Step leased marking :=
    .readParts _ 0 o (sampleLeased false) 2000 rfl rfl (Nat.zero_le 4)
  have hmarked : Step marking marked := .marked _ 0 0 o _ 2000 _ rfl hmark rfl
  have hsent := Step.proceed marked 0 _ _ 2000 rfl rfl
  exact ⟨_, ((((Relation.ReflTransGen.single hasked).tail hleased).tail hread).tail hmarked).tail
    hsent, ⟨0, _, artifactStagingKey "AU", rfl, List.mem_cons_self, rfl⟩, rfl⟩

/-- The operator's hold finds the row busy while the delete is under way. -/
theorem cleanup_respects_holds_sample : ∃ w : World, w.Outstanding "AU"
    ∧ ∀ site, w.db "AU" = some site → site.retention.held = false := by
  obtain ⟨w, hrun, hout, -⟩ := sample_outstanding
  have hsafe := @cleanup_respects_holds sampleStart _ ⟨fun _ => rfl, fun _ => rfl⟩ hrun
  refine ⟨w, hout, fun site hsite => ?_⟩
  by_contra hheld
  exact (hsafe.held "AU" site hsite (Bool.not_eq_false _ ▸ hheld)).1 hout

end Asimposium.Staging
