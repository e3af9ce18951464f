import Asimposium.Staging.Rows
import Mathlib.Logic.Function.Basic

/-!
# Holds and live uploads

While an operation lives, its row is locked: it is marked, its lease has
the token of the operation, it is not held, and its upload is terminal. No
statement changes a locked row but the acknowledgement with that token
(`Locked.exec`). So the row tells what is under way at the bucket, however
old the lease is.
-/

namespace Asimposium.Staging

/-! ## What a statement does to a row -/

variable {site site' : Site} {matched : Bool}

theorem updateRetention_cases {selected : Bool} {new : RetentionRow}
    (h : site.updateRetention selected new = some (site', matched)) :
    (selected = false ∧ site' = site ∧ matched = false)
      ∨ (selected = true ∧ site.retention.holdRefused new = false ∧ new.checks = true
        ∧ site' = { site with retention := new } ∧ matched = true) := by
  unfold Site.updateRetention at h
  split at h
  · rename_i hselected
    cases h
    exact .inl ⟨by simpa using hselected, rfl, rfl⟩
  · rename_i hselected
    split at h
    · cases h
    · rename_i hnot
      cases h
      simp only [Bool.or_eq_true, not_or, Bool.not_eq_true, Bool.not_eq_true',
        Bool.not_eq_false] at hselected hnot
      exact .inr ⟨hselected, hnot.1, hnot.2, rfl, rfl⟩

theorem updateUpload_cases {selected : Bool} {new : UploadRow}
    (h : site.updateUpload selected new = some (site', matched)) :
    site' = site ∨ (site.upload.state = .presigned
      ∧ site'.retention.deletionPending = site.retention.deletionPending) := by
  unfold Site.updateUpload at h
  split at h
  · cases h
    exact .inl rfl
  · split at h
    · cases h
    · rename_i hnot
      simp only [Bool.or_eq_true, not_or, bne_iff_ne, ne_eq, not_not] at hnot
      cases h
      refine .inr ⟨hnot.1.1.1.1, ?_⟩
      dsimp only
      split <;> rfl

theorem updateUpload_terminal {selected : Bool} {new : UploadRow}
    (hterminal : site.upload.state ≠ .presigned)
    (h : site.updateUpload selected new = some (site', matched)) : site' = site := by
  rcases updateUpload_cases h with hsame | ⟨hpresigned, -⟩
  · exact hsame
  · exact absurd hpresigned hterminal

theorem checks_pending {row : RetentionRow} (hchecks : row.checks = true)
    (hpending : row.deletionPending = true) : row.held = false ∧ row.lease.isSome = true := by
  unfold RetentionRow.checks at hchecks
  simp only [Bool.and_eq_true, Bool.or_eq_true, Bool.not_eq_true', hpending,
    Bool.true_eq_false, false_or] at hchecks
  exact hchecks.1.2

def Statement.acknowledges (token : String) : Statement → Bool
  | .acknowledge t _ _ | .acknowledgeFailure t _ _ => t == token
  | _ => false

structure Locked (token : String) (site : Site) : Prop where
  terminal : site.upload.state ≠ .presigned
  free : site.retention.held = false
  pending : site.retention.deletionPending = true
  leased : leasedTo token site.retention.lease = true

variable {token : String}

theorem leasedTo_unique {token' : String} {lease : Option Lease} (h : leasedTo token lease = true)
    (h' : leasedTo token' lease = true) : token = token' := by
  cases lease with
  | none => cases h
  | some lease => exact (beq_iff_eq.mp h).symm.trans (beq_iff_eq.mp h')

variable {statement : Statement}

theorem Locked.exec (hlocked : Locked token site) (hnot : statement.acknowledges token = false)
    (h : statement.exec site = some (site', matched)) : site' = site := by
  cases statement with
  | leaseScheduled t now =>
      rcases updateRetention_cases h with ⟨-, hsame, -⟩ | ⟨hselected, -⟩
      · exact hsame
      · simp [Site.due, hlocked.pending] at hselected
  | leaseRequest t now =>
      rcases updateRetention_cases h with ⟨-, hsame, -⟩ | ⟨hselected, -⟩
      · exact hsame
      · simp [hlocked.pending] at hselected
  | expireUpload t now => exact updateUpload_terminal hlocked.terminal h
  | releaseUnneeded t checkedAt =>
      rcases updateRetention_cases h with ⟨-, hsame, -⟩ | ⟨-, -, hchecks, -⟩
      · exact hsame
      · -- a marked row without a lease fails its check
        cases (checks_pending hchecks hlocked.pending).2
  | beginDeletion t now scheduled =>
      rcases updateRetention_cases h with ⟨-, hsame, -⟩ | ⟨hselected, -⟩
      · exact hsame
      · simp [hlocked.pending] at hselected
  | acknowledge t finished scheduled =>
      rcases updateRetention_cases h with ⟨-, hsame, -⟩ | ⟨hselected, -⟩
      · exact hsame
      · rw [Bool.and_eq_true] at hselected
        rw [Statement.acknowledges, leasedTo_unique hselected.2 hlocked.leased, beq_self_eq_true]
          at hnot
        cases hnot
  | acknowledgeFailure t now scheduled =>
      rcases updateRetention_cases h with ⟨-, hsame, -⟩ | ⟨hselected, -⟩
      · exact hsame
      · rw [Bool.and_eq_true] at hselected
        rw [Statement.acknowledges, leasedTo_unique hselected.2 hlocked.leased, beq_self_eq_true]
          at hnot
        cases hnot
  | releaseFailed t now =>
      rcases updateRetention_cases h with ⟨-, hsame, -⟩ | ⟨hselected, -⟩
      · exact hsame
      · simp [hlocked.pending] at hselected
  | releaseRequest t =>
      rcases updateRetention_cases h with ⟨-, hsame, -⟩ | ⟨hselected, -⟩
      · exact hsame
      · simp [hlocked.pending] at hselected
  | hold held =>
      rcases updateRetention_cases h with ⟨-, hsame, -⟩ | ⟨-, -, hchecks, hsite, -⟩
      · exact hsame
      · -- a hold on a marked row fails the check; lifting one changes nothing
        have hheld : held = false := (checks_pending hchecks hlocked.pending).1
        rw [hsite, hheld, ← hlocked.free]
  | manifest selected row => exact updateUpload_terminal hlocked.terminal h

theorem leasedTo_of_beyond {now : Int} {lease : Option Lease}
    (h : leasedBeyond token now lease = true) : leasedTo token lease = true := by
  cases lease with
  | none => cases h
  | some lease => exact (Bool.and_eq_true _ _ ▸ h).1

theorem beginDeletion_locked {now : Int} {scheduled : Bool}
    (h : (Statement.beginDeletion token now scheduled).exec site = some (site', true)) :
    site.retention.deletionPending = false ∧ Locked token site' := by
  obtain ⟨-, -, hmatched⟩ | ⟨hselected, -, -, rfl, -⟩ := updateRetention_cases h
  · cases hmatched
  simp only [Bool.and_eq_true, Bool.not_eq_true'] at hselected
  obtain ⟨⟨⟨hheld, hpending⟩, hleased⟩, hstate⟩ := hselected
  refine ⟨hpending, fun hpresigned => ?_, hheld, rfl, leasedTo_of_beyond hleased⟩
  have hpresigned : site.upload.state = .presigned := hpresigned
  simp [hpresigned] at hstate

theorem exec_pending (hnot : ∀ token, statement.acknowledges token = false)
    (hpending : site.retention.deletionPending = true)
    (h : statement.exec site = some (site', matched)) : site'.retention.deletionPending = true := by
  have hupload : ∀ {selected new}, site.updateUpload selected new = some (site', matched) →
      site'.retention.deletionPending = true := by
    intro selected new h
    rcases updateUpload_cases h with rfl | ⟨-, hsame⟩
    · exact hpending
    · exact hsame.trans hpending
  cases statement with
  | expireUpload t now => exact hupload h
  | manifest selected row => exact hupload h
  | acknowledge t finished scheduled =>
      have hself := hnot t
      rw [Statement.acknowledges, beq_self_eq_true] at hself
      cases hself
  | acknowledgeFailure t now scheduled =>
      have hself := hnot t
      rw [Statement.acknowledges, beq_self_eq_true] at hself
      cases hself
  | _ =>
      rcases updateRetention_cases h with ⟨-, rfl, -⟩ | ⟨-, -, -, rfl, -⟩
      · exact hpending
      · first | exact hpending | rfl

theorem run_some {site₁ : Option Site} (h : statement.run (some site) = some (site₁, matched)) :
    ∃ site', site₁ = some site' ∧ statement.exec site = some (site', matched) := by
  obtain ⟨⟨site', matched'⟩, hexec, hpair⟩ := Option.map_eq_some_iff.mp h
  cases hpair
  exact ⟨site', rfl, hexec⟩

theorem Locked.run {token : String} {site : Site} {site₁ : Option Site} {matched : Bool}
    {statement : Statement} (hlocked : Locked token site)
    (hnot : statement.acknowledges token = false)
    (h : statement.run (some site) = some (site₁, matched)) : site₁ = some site := by
  obtain ⟨site', rfl, hexec⟩ := run_some h
  rw [hlocked.exec hnot hexec]

theorem statement_not_acknowledges {main : Main} {uploadId : String}
    (h : main.statement = some (uploadId, statement)) (token : String) :
    statement.acknowledges token = false := by
  cases main with
  | lease o now | recover o now =>
      cases h
      split <;> rfl
  | expire o now | release o now | marking o keys now =>
      cases h
      rfl
  | idle | next | check | parts | racing => cases h

/-! ## The operation keeps to its upload -/

/-- What a phase says of the keys; an operation settles behind a delete
that has settled. -/
def Cleanup.PhaseTidy (c : Cleanup) : Phase → Prop
  | .begun => c.keys ≠ [] ∧ c.deadlineExpired = false
  | .waiting batch => batch ≠ [] ∧ ∀ key ∈ batch, key.uploadId = c.uploadId
  | .orphaned batch => ∀ key ∈ batch, key.uploadId = c.uploadId
  | .between | .settled _ _ => c.answered ≠ []
  | .ended _ => True

structure Cleanup.Tidy (c : Cleanup) : Prop where
  keys : ∀ key ∈ c.keys, key.uploadId = c.uploadId
  phase : c.PhaseTidy c.phase

structure Cleanup.Continues (c c' : Cleanup) : Prop where
  uploadId : c'.uploadId = c.uploadId
  token : c'.token = c.token
  live : c'.live = true → c.live = true
  tidy : c.Tidy → c'.Tidy

variable {c : Cleanup}

theorem outstanding_upload (htidy : c.Tidy) {key : Key} (hkey : key ∈ c.outstanding) :
    c.live = true ∧ key.uploadId = c.uploadId := by
  obtain ⟨-, hphase⟩ := htidy
  unfold Cleanup.outstanding at hkey
  unfold Cleanup.live
  split at hkey
  · rename_i hwaiting
    rw [hwaiting] at hphase ⊢
    exact ⟨rfl, hphase.2 key hkey⟩
  · rename_i horphaned
    rw [horphaned] at hphase ⊢
    exact ⟨rfl, hphase key hkey⟩
  · cases hkey

theorem deleteNext_continues (clock : Int) (hlive : c.live = true)
    (hphase : c.phase = .begun ∨ c.phase = .between) : c.Continues (c.deleteNext clock) := by
  -- before the first delete there are keys and the deadline is ahead
  have hanswered (h : c.keys = [] ∨ c.deadlineExpired = true) (htidy : c.Tidy) :
      c.answered ≠ [] := by
    have htidy := htidy.phase
    rcases hphase with hbegun | hbetween
    · rw [hbegun] at htidy
      rcases h with h | h
      · exact absurd h htidy.1
      · rw [htidy.2] at h
        cases h
    · rw [hbetween] at htidy
      exact htidy
  unfold Cleanup.deleteNext
  split
  · rename_i hkeys
    exact ⟨rfl, rfl, fun _ => hlive, fun htidy => ⟨htidy.keys, hanswered (.inl hkeys) htidy⟩⟩
  · rename_i key rest hkeys
    split
    · rename_i hexpired
      exact ⟨rfl, rfl, fun _ => hlive, fun htidy => ⟨htidy.keys, hanswered (.inr hexpired) htidy⟩⟩
    · refine ⟨rfl, rfl, fun _ => hlive, fun htidy => ⟨?_, List.cons_ne_nil _ _, ?_⟩⟩
      · intro k hk
        exact htidy.keys k (hkeys ▸ List.mem_cons_of_mem key hk)
      · intro k hk
        exact htidy.keys k (hkeys ▸ List.mem_singleton.mp hk ▸ List.mem_cons_self)

theorem proceed_continues {c' : Cleanup} {clock : Int} (h : c.proceed clock = some c') :
    c.Continues c' := by
  unfold Cleanup.proceed at h
  split at h
  · rename_i hphase
    have hlive : c.live = true := by simp [Cleanup.live, hphase]
    split at h
    · cases h
      refine ⟨rfl, rfl, fun _ => hlive, fun htidy => ⟨?_, ?_, htidy.keys⟩⟩
      · intro key hkey
        cases hkey
      · have hbegun := htidy.phase
        rw [hphase] at hbegun
        exact hbegun.1
    · cases h
      exact deleteNext_continues clock hlive (.inl hphase)
  · rename_i hphase
    cases h
    exact deleteNext_continues clock (by simp [Cleanup.live, hphase]) (.inr hphase)
  · cases h

theorem settle_continues {batch : List Key} (ok : Bool) (clock : Int)
    (hphase : c.phase = .waiting batch) : c.Continues (c.settle batch ok clock) := by
  refine ⟨rfl, rfl, fun _ => by simp [Cleanup.live, hphase], fun htidy => ⟨htidy.keys, ?_⟩⟩
  have hwaiting := htidy.phase
  rw [hphase] at hwaiting
  have hanswered : c.answered ++ batch ≠ [] := List.append_ne_nil_of_right_ne_nil _ hwaiting.1
  cases ok with
  | true => exact hanswered
  | false => exact hanswered

theorem crash_continues (c : Cleanup) : c.Continues c.crash := by
  unfold Cleanup.crash
  split
  · rename_i batch hphase
    refine ⟨rfl, rfl, fun _ => by simp [Cleanup.live, hphase], fun htidy => ⟨htidy.keys, ?_⟩⟩
    have hwaiting := htidy.phase
    rw [hphase] at hwaiting
    exact hwaiting.2
  · exact ⟨rfl, rfl, id, id⟩
  · refine ⟨rfl, rfl, fun h => ?_, fun htidy => ⟨htidy.keys, trivial⟩⟩
    cases h

theorem ended_continues (c : Cleanup) (result : Option Bool) (answered : List Key) :
    c.Continues { c with phase := .ended result, answered := answered } := by
  refine ⟨rfl, rfl, fun h => ?_, fun htidy => ⟨htidy.keys, trivial⟩⟩
  cases h

theorem deadline_continues (hbegun : c.phase ≠ .begun) :
    c.Continues { c with deadlineExpired := true } := by
  refine ⟨rfl, rfl, id, fun htidy => ⟨htidy.keys, ?_⟩⟩
  have hphase := htidy.phase
  cases h : c.phase with
  | begun => exact absurd h hbegun
  | _ =>
      rw [h] at hphase
      exact hphase

theorem Cleanup.Continues.refl (c : Cleanup) : c.Continues c := ⟨rfl, rfl, id, id⟩

theorem setCleanup_back {w : World} {n m : Nat} {c' d : Cleanup} (hc : w.cleanups n = some c)
    (hcontinues : c.Continues c') (hd : (w.setCleanup n c').cleanups m = some d) :
    ∃ d', w.cleanups m = some d' ∧ d'.Continues d := by
  rw [World.cleanups_setCleanup] at hd
  split at hd
  · rename_i hm
    cases hd
    exact ⟨c, hm ▸ hc, hcontinues⟩
  · exact ⟨d, hd, .refl d⟩

/-! ## The invariant -/

/-- What is to be marked are the staging keys of the upload. -/
def Main.Tidy (main : Main) : Prop :=
  ∀ o keys now, main = .marking o keys now → ∃ parts, keys = stagingKeys o.uploadId parts

structure Inv (w : World) : Prop where
  /-- The row of an operation that lives is locked. -/
  locked : ∀ n c, w.cleanups n = some c → c.live = true →
    ∃ site, w.db c.uploadId = some site ∧ Locked c.token site
  alone : ∀ n m c d, w.cleanups n = some c → w.cleanups m = some d → c.live = true →
    d.live = true → c.uploadId = d.uploadId → n = m
  tidy : ∀ n c, w.cleanups n = some c → c.Tidy
  mains : ∀ i, (w.mains i).Tidy

theorem answered_tidy {main : Main} (htidy : main.Tidy) (clock : Int) (matched : Bool) :
    (main.answered clock matched).Tidy := by
  intro o keys now h
  cases main with
  | marking o' keys' now' | lease o' now' | recover o' now' | release o' now' =>
      simp only [Main.answered, Owner.returned, Owner.leave] at h
      repeat' split at h
      all_goals cases h
  | expire => cases h
  | _ => exact htidy o keys now h

theorem failed_tidy {main : Main} (htidy : main.Tidy) (clock : Int) : (main.failed clock).Tidy := by
  intro o keys now h
  cases main with
  | recover o' now' =>
      simp only [Main.failed, Owner.leave] at h
      split at h <;> cases h
  | idle | next | racing => exact htidy o keys now h
  | _ => cases h

namespace Inv

variable {w : World}

theorem setMain (h : Inv w) (i : Nat) {main : Main} (htidy : main.Tidy) :
    Inv (w.setMain i main) := by
  refine ⟨h.locked, h.alone, h.tidy, fun j => ?_⟩
  rw [World.mains_setMain]
  split
  · exact htidy
  · exact h.mains j

theorem setObject (h : Inv w) (key : Key) (present : Bool) : Inv (w.setObject key present) :=
  ⟨h.locked, h.alone, h.tidy, h.mains⟩

theorem setSite (h : Inv w) {uploadId : String} {site : Option Site}
    (hkept : ∀ n c site', w.cleanups n = some c → c.live = true → c.uploadId = uploadId →
      w.db uploadId = some site' → Locked c.token site' →
      ∃ site'', site = some site'' ∧ Locked c.token site'') :
    Inv (w.setSite uploadId site) := by
  refine ⟨fun n c hc hlive => ?_, h.alone, h.tidy, h.mains⟩
  obtain ⟨site', hsite', hlocked⟩ := h.locked n c hc hlive
  rw [World.db_setSite]
  split
  · rename_i hsame
    exact hkept n c site' hc hlive hsame (hsame ▸ hsite') hlocked
  · exact ⟨site', hsite', hlocked⟩

theorem setCleanup (h : Inv w) {n : Nat} {c c' : Cleanup} (hc : w.cleanups n = some c)
    (hcontinues : c.Continues c') : Inv (w.setCleanup n c') := by
  refine ⟨fun m d hd hlive => ?_, fun m k d e hd he hdlive helive heq => ?_, fun m d hd => ?_,
    h.mains⟩
  · obtain ⟨d', hd', hcont⟩ := setCleanup_back hc hcontinues hd
    rw [hcont.uploadId, hcont.token]
    exact h.locked m d' hd' (hcont.live hlive)
  · obtain ⟨d', hd', hdcont⟩ := setCleanup_back hc hcontinues hd
    obtain ⟨e', he', hecont⟩ := setCleanup_back hc hcontinues he
    refine h.alone m k d' e' hd' he' (hdcont.live hdlive) (hecont.live helive) ?_
    rw [← hdcont.uploadId, ← hecont.uploadId, heq]
  · obtain ⟨d', hd', hcont⟩ := setCleanup_back hc hcontinues hd
    exact hcont.tidy (h.tidy m d' hd')

theorem run (h : Inv w) {uploadId : String} {statement : Statement} {site : Option Site}
    {matched : Bool} (hnot : ∀ token, statement.acknowledges token = false)
    (hrun : statement.run (w.db uploadId) = some (site, matched)) :
    Inv (w.setSite uploadId site) := by
  refine h.setSite fun n c site' _ _ _ hsite' hlocked => ⟨site', ?_, hlocked⟩
  rw [hsite'] at hrun
  exact hlocked.run (hnot c.token) hrun

theorem acknowledged (h : Inv w) {n : Nat} {c : Cleanup} {result : Option Bool}
    {site : Option Site} (hc : w.cleanups n = some c) (hlive : c.live = true) :
    Inv ((w.setSite c.uploadId site).setCleanup n { c with phase := .ended result }) := by
  have hended := h.setCleanup hc (ended_continues c result c.answered)
  refine @Inv.setSite _ hended c.uploadId site ?_
  intro m d _ hd hdlive heq _ _
  rw [World.cleanups_setCleanup] at hd
  split at hd
  · cases hd
    cases hdlive
  · rename_i hm
    exact absurd (h.alone m n d c hd hc hdlive hlive heq) hm

theorem marked (h : Inv w) {n : Nat} {o : Owner} {parts : List Part} {now : Int}
    {site : Option Site}
    (hrun : (Statement.beginDeletion o.token now o.scheduled).run (w.db o.uploadId)
      = some (site, true)) :
    Inv ((w.setSite o.uploadId site).setCleanup n
      ⟨o.uploadId, o.token, o.scheduled, stagingKeys o.uploadId parts, false, .begun, []⟩) := by
  have hsite := h.run (fun _ => rfl) hrun
  obtain ⟨old, hold⟩ : ∃ old, w.db o.uploadId = some old := by
    cases hdb : w.db o.uploadId with
    | none =>
        rw [hdb] at hrun
        cases hrun
    | some old => exact ⟨old, rfl⟩
  rw [hold] at hrun
  obtain ⟨new, rfl, hexec⟩ := run_some hrun
  obtain ⟨hpending, hlocked⟩ := beginDeletion_locked hexec
  have hnone : ∀ m d, w.cleanups m = some d → d.live = true → d.uploadId ≠ o.uploadId := by
    intro m d hd hlive heq
    obtain ⟨row, hrow, hlocked⟩ := h.locked m d hd hlive
    rw [heq, hold] at hrow
    cases hrow
    exact Bool.false_ne_true (hpending.symm.trans hlocked.pending)
  refine ⟨fun m d hd hlive => ?_, fun m k d e hd he hdlive helive heq => ?_, fun m d hd => ?_,
    h.mains⟩
  · rw [World.cleanups_setCleanup] at hd
    split at hd
    · cases hd
      exact ⟨new, Function.update_self _ _ _, hlocked⟩
    · exact hsite.locked m d hd hlive
  · rw [World.cleanups_setCleanup] at hd he
    split at hd <;> split at he
    · rename_i hm hk
      exact hm.trans hk.symm
    · cases hd
      exact absurd heq.symm (hnone k e he helive)
    · cases he
      exact absurd heq (hnone m d hd hdlive)
    · exact h.alone m k d e hd he hdlive helive heq
  · rw [World.cleanups_setCleanup] at hd
    split at hd
    · cases hd
      refine ⟨fun key hkey => ?_, List.cons_ne_nil _ _, rfl⟩
      rcases List.mem_cons.mp hkey with rfl | hpart
      · rfl
      · obtain ⟨part, -, rfl⟩ := List.mem_map.mp hpart
        rfl
    · exact h.tidy m d hd

theorem step (h : Inv w) {w' : World} (hstep : Step w w') : Inv w' := by
  cases hstep with
  | beginSweep i _ candidates | beginRequest i | candidate i | candidateFailed i | endSweep i
  | crash i =>
      refine h.setMain i ?_
      intro o keys now hmain
      cases hmain
  | answered i uploadId statement site matched clock hmain hrun hnot =>
      exact (h.run (statement_not_acknowledges hmain) hrun).setMain i
        (answered_tidy (h.mains i) clock matched)
  | answerLost i uploadId statement site matched clock hmain hrun =>
      exact (h.run (statement_not_acknowledges hmain) hrun).setMain i
        (failed_tidy (h.mains i) clock)
  | failed i clock => exact h.setMain i (failed_tidy (h.mains i) clock)
  | marked i n o keys now site hmain hrun hfresh =>
      obtain ⟨parts, rfl⟩ := h.mains i o keys now hmain
      refine (@Inv.marked _ h n _ parts _ _ hrun).setMain i ?_
      intro o' keys' now' hmain'
      cases hmain'
  | checked i o checkedAt hmain =>
      refine h.setMain i ?_
      intro o' keys now hmain'
      split at hmain' <;> cases hmain'
  | readParts i o site now hmain hsite hparts =>
      refine h.setMain i ?_
      intro o' keys now' hmain'
      cases hmain'
      exact ⟨site.parts, rfl⟩
  | raceWon i n o c result clock hmain hcleanup hended =>
      refine h.setMain i ?_
      intro o' keys now hmain'
      unfold Owner.returned at hmain'
      repeat' split at hmain'
      all_goals cases hmain'
  | deadline i n o c clock hmain hcleanup hbegun =>
      refine (h.setCleanup hcleanup (deadline_continues hbegun)).setMain i ?_
      intro o' keys now hmain'
      cases hmain'
  | crashCleanup n c hcleanup => exact h.setCleanup hcleanup (crash_continues c)
  | proceed n c c' clock hcleanup hproceed =>
      exact h.setCleanup hcleanup (proceed_continues hproceed)
  | erase n c key hcleanup hkey => exact h.setObject key false
  | settle n c batch ok clock hcleanup hphase =>
      exact h.setCleanup hcleanup (settle_continues ok clock hphase)
  | settleOrphaned n c batch hcleanup hphase =>
      exact h.setCleanup hcleanup (ended_continues c none _)
  | acknowledged n c ok finished site matched hcleanup hphase hrun =>
      exact h.acknowledged hcleanup (by simp [Cleanup.live, hphase])
  | acknowledgementLost n c ok finished site matched hcleanup hphase hrun =>
      exact h.acknowledged hcleanup (by simp [Cleanup.live, hphase])
  | acknowledgementFailed n c ok finished hcleanup hphase =>
      exact h.setCleanup hcleanup (ended_continues c none c.answered)
  | hold uploadId held site hrun => exact h.run (fun _ => rfl) hrun
  | manifest uploadId selected row site matched hrun => exact h.run (fun _ => rfl) hrun
  | create uploadId row hfresh hstate =>
      refine h.setSite fun n c site _ _ _ hsite _ => ?_
      rw [hfresh] at hsite
      cases hsite
  | record uploadId site renewals parts hsite =>
      refine h.setSite fun n c site' _ _ _ hsite' hlocked => ?_
      rw [hsite] at hsite'
      cases hsite'
      exact ⟨_, rfl, hlocked.terminal, hlocked.free, hlocked.pending, hlocked.leased⟩
  | put key => exact h.setObject key true

end Inv

end Asimposium.Staging
