import Triage.Proofs.Cleaning.Detachment
import Triage.Proofs.Clustering.Supersession

/-!
# Links between defects and the removal of old ones

A superseded defect names the one that took it over.  It was closed no later than that one, on the same
server, and has no build that the other one lacks (`Defect.Precedes`), so whenever the other one is
overdue it is overdue as well.  A removal run therefore breaks the link only when its budget ends between
the two (`Cleaning.Severs`), and a link that dangles has been broken in this way
(`Chronicle.dangles_iff`).  This needs a clock that never goes back, and that nobody discards a broken
defect.
-/

namespace Triage

open DefectStore Clustering Cleaning

/-! ### A defect and the one that took it over -/

/-- Whatever makes a removal run take the second defect makes it take the first. -/
structure Defect.Precedes (d e : Defect) : Prop where
  server : e.server = d.server
  builds {b : Nat} : d.hasBuild b = true → e.hasBuild b = true
  resolvedAt {t : Timestamp} : e.resolvedAt = some t → ∃ u, d.resolvedAt = some u ∧ u ≤ t

/-- What may become of a record at the time `now`: it takes builds in while it is open, and is closed at
most once. -/
structure Defect.Develops (now : Timestamp) (d d' : Defect) : Prop where
  server : d'.server = d.server
  keeps {b : Nat} : d.hasBuild b = true → d'.hasBuild b = true
  gains {b : Nat} : d'.hasBuild b = true → d.hasBuild b = true ∨ d.isOpen = true
  resolvedAt : d'.resolvedAt = d.resolvedAt ∨ d.isOpen = true ∧ d'.resolvedAt = some now

namespace Defect

variable {d e d' e' : Defect} {now threshold : Timestamp}
  {builds : OrderedMap BuildRef BuildSnapshot}

theorem Precedes.isOverdue (h : d.Precedes e) (he : Cleaning.isOverdue builds threshold e = true) :
    Cleaning.isOverdue builds threshold d = true := by
  unfold Cleaning.isOverdue lacksMember at *
  obtain ⟨hbefore, hmembers⟩ := Bool.and_eq_true_iff.1 he
  obtain ⟨t, ht, hlt⟩ := (Option.any_eq_true _ _).1 hbefore
  obtain ⟨u, hu, hle⟩ := h.resolvedAt ht
  refine Bool.and_eq_true_iff.2 ⟨?_, ?_⟩
  · rw [hu]
    exact decide_eq_true (Timestamp.lt_of_le_of_lt hle (of_decide_eq_true hlt))
  · rw [Bool.not_eq_true', List.any_eq_false] at hmembers ⊢
    intro r hr
    obtain ⟨hserver, hb⟩ := mem_memberRefs.1 hr
    exact hmembers r (mem_memberRefs.2 ⟨h.server.trans hserver, h.builds hb⟩)

theorem Develops.of_same (hserver : d'.server = d.server) (hmembers : d'.members = d.members)
    (hresolved : d'.resolvedAt = d.resolvedAt ∨ d.isOpen = true ∧ d'.resolvedAt = some now) :
    d.Develops now d' := by
  refine ⟨hserver, fun hb => ?_, fun hb => .inl ?_, hresolved⟩ <;>
  · unfold hasBuild at *
    rw [hmembers] at *
    exact hb

theorem Develops.refl (d : Defect) : d.Develops now d := .of_same rfl rfl (.inl rfl)

theorem resolvedAt_of_not_isOpen (h : d.isOpen = false) : ∃ t, d.resolvedAt = some t := by
  unfold isOpen at h
  exact Option.isSome_iff_exists.1 (by simpa using h)

/-- The order stays when both records develop, for the first one is closed. -/
theorem Precedes.develops (h : d.Precedes e) (hclosed : d.isOpen = false)
    (hdated : ∀ t, d.resolvedAt = some t → t ≤ now) (hd : d.Develops now d')
    (he : e.Develops now e') : d'.Precedes e' := by
  obtain ⟨t, ht⟩ := resolvedAt_of_not_isOpen hclosed
  have hsame : d'.resolvedAt = some t := by
    rcases hd.resolvedAt with hsame | ⟨hopen, -⟩
    · rw [hsame, ht]
    · rw [hclosed] at hopen
      cases hopen
  refine ⟨he.server.trans (h.server.trans hd.server.symm), fun hb => ?_, fun {v} hv => ⟨t, hsame, ?_⟩⟩
  · rcases hd.gains hb with hb | hopen
    · exact he.keeps (h.builds hb)
    · rw [hclosed] at hopen
      cases hopen
  · rcases he.resolvedAt with hsame | ⟨-, hnow⟩
    · obtain ⟨u, hu, hle⟩ := h.resolvedAt (hsame.symm.trans hv)
      cases ht.symm.trans hu
      exact hle
    · cases hnow.symm.trans hv
      exact hdated t ht

end Defect

namespace DefectStore

/-- No defect was closed after `now`, and each one precedes the one that took it over if this is still
stored. -/
structure Dated (now : Timestamp) (s : DefectStore) : Prop where
  resolvedAt {id : Nat} {d : Defect} {t : Timestamp} : s.find? id = some d →
    d.resolvedAt = some t → t ≤ now
  link {id target : Nat} {d e : Defect} : s.find? id = some d → d.supersededBy = some target →
    s.find? target = some e → d.Precedes e

variable {s t : DefectStore} {now : Timestamp}

theorem Dated.later {now' : Timestamp} (h : s.Dated now) (hle : now ≤ now') : s.Dated now' :=
  ⟨fun hd ht => Timestamp.le_trans (h.resolvedAt hd ht) hle, h.link⟩

/-- Records may develop, new ones are open, and what a new link needs has to be shown. -/
theorem Dated.of_origin (hs : s.WellFormed) (hdesc : s.Descending) (h : s.Dated now)
    (hold : ∀ {id d'}, id ≤ s.lastId → t.find? id = some d' →
      ∃ d, s.find? id = some d ∧ d.Develops now d')
    (hnew : ∀ {id d'}, s.lastId < id → t.find? id = some d' → d'.isOpen = true)
    (hlink : ∀ {id target d' e'}, t.find? id = some d' → d'.supersededBy = some target →
      t.find? target = some e' → s.LeadsTo id target ∨ d'.Precedes e') : t.Dated now := by
  constructor
  · intro id d' v hd' hv
    rcases Nat.lt_or_ge s.lastId id with hlt | hle
    · have hopen := hnew hlt hd'
      unfold Defect.isOpen at hopen
      rw [hv] at hopen
      cases hopen
    · obtain ⟨d, hd, hdev⟩ := hold hle hd'
      rcases hdev.resolvedAt with hsame | ⟨-, hnow⟩
      · exact h.resolvedAt hd (hsame.symm.trans hv)
      · cases hnow.symm.trans hv
        exact Timestamp.le_refl _
  · intro id target d' e' hd' hsup he'
    rcases hlink hd' hsup he' with ⟨d, hd, hdsup⟩ | hprecedes
    · have hid := hs.bounded hd
      have htarget := hdesc hd hdsup
      obtain ⟨e, he, hedev⟩ := hold (by omega) he'
      obtain ⟨d₀, hd₀, hddev⟩ := hold hid hd'
      cases hd.symm.trans hd₀
      exact (h.link hd hdsup he).develops (hs.closed hd (by rw [hdsup]; rfl))
        (fun _ => h.resolvedAt hd) hddev hedev
    · exact hprecedes

/-- The same where no record is new and no link is. -/
theorem Dated.of_kept (hs : s.WellFormed) (hdesc : s.Descending) (h : s.Dated now)
    (hkept : ∀ {id d'}, t.find? id = some d' →
      ∃ d, s.find? id = some d ∧ d.Develops now d' ∧ d'.supersededBy = d.supersededBy) :
    t.Dated now := by
  refine h.of_origin hs hdesc (fun _ hd' => ?_) (fun hlt hd' => ?_) fun hd' hsup _ => .inl ?_
  · obtain ⟨d, hd, hdev, -⟩ := hkept hd'
    exact ⟨d, hd, hdev⟩
  · obtain ⟨d, hd, -⟩ := hkept hd'
    exact absurd (hs.bounded hd) (by omega)
  · obtain ⟨d, hd, -, hsame⟩ := hkept hd'
    exact ⟨d, hd, hsame.symm.trans hsup⟩

/-- A link to a defect that is gone. -/
def Dangles (s : DefectStore) (id target : Nat) : Prop := s.LeadsTo id target ∧ s.find? target = none

/-- Where no defect is gone and no link is new, no link begins to dangle. -/
theorem Dangles.of_grows {id target : Nat} (hg : s.Grows t) (h : t.Dangles id target)
    (hlink : s.LeadsTo id target) : s.Dangles id target := by
  refine ⟨hlink, ?_⟩
  by_contra hne
  obtain ⟨e, he⟩ := Option.ne_none_iff_exists'.1 hne
  obtain ⟨e', he', -⟩ := hg he
  cases he'.symm.trans h.2

end DefectStore

/-! ### Placements -/

namespace Clustering

variable {s : DefectStore} {b : BuildSnapshot} {d d' : Defect} {now : Timestamp} {i : Issue}

theorem Becomes.develops (hs : s.WellFormed) (hd : s.find? d.id = some d)
    (h : Becomes now i b s d d') : d.Develops now d' := by
  have hevolves := h.evolves hs hd
  have hkeeps : ∀ {k}, d.hasBuild k = true → d'.hasBuild k = true := hevolves.members.hasBuild
  cases h with
  | same => exact .refl d
  | held hp =>
    obtain ⟨-, -, hb, -⟩ := held_spec hs hp
    refine ⟨hevolves.server, hkeeps, fun {k} hk => .inl ?_, .inl (attached_sameStanding i b d).resolvedAt⟩
    -- the holder of a build takes no other one in
    by_cases hkb : k = b.build
    · rwa [hkb]
    · obtain ⟨m, hm⟩ := Defect.find?_of_hasBuild hk
      rw [find?_attached, if_neg hkb] at hm
      exact Defect.hasBuild_of_find? hm
  | target _ hopen =>
    exact ⟨hevolves.server, hkeeps, fun _ => .inr hopen, .inl (joined_sameStanding i b _ d).resolvedAt⟩
  | takenOver _ _ hopen =>
    rw [superseded_of_isOpen hopen]
    exact .of_same rfl rfl (.inr ⟨hopen, rfl⟩)

theorem isOpen_target (hs : s.WellFormed) {target : Nat} {others : List Nat} {e : Defect}
    (hp : placement b s = .joined target others) (he : (placed now i b s).find? target = some e) :
    e.isOpen = true := by
  have hspec := placement_spec hs b
  rw [hp] at hspec
  obtain ⟨t, ht, -, hall⟩ := hspec.find?_target now hs
  unfold placed at he
  rw [hp, hspec.find?_result_joined, if_pos rfl, ht] at he
  cases he
  exact (joined_sameStanding i b _ t).isOpen.trans (hall t (by simp)).2.2.1

/-- A link after a placement was there before, or leads to the target of a merge. -/
theorem link_placed (hs : s.Sound) {id target : Nat} (hd' : (placed now i b s).find? id = some d')
    (hsup : d'.supersededBy = some target) :
    s.LeadsTo id target ∨ ∃ e, (placed now i b s).find? target = some e ∧ d'.Precedes e := by
  have hw := hs.wellFormed
  rcases becomes_of_find?_placed hw hd' with ⟨d, hd, hb⟩ | ⟨-, -, rfl⟩
  · cases hb with
    | same => exact .inl ⟨_, hd, hsup⟩
    | held => exact .inl ⟨_, hd, (attached_sameStanding i b _).supersededBy ▸ hsup⟩
    | target => exact .inl ⟨_, hd, (joined_sameStanding i b _ _).supersededBy ▸ hsup⟩
    | takenOver hp hmem hopen =>
      obtain rfl := hw.keyed hd
      obtain ⟨e, he, hserver, hwithin⟩ := within_target hs hp now i hd hmem
      have htarget := isOpen_target hw hp he
      rw [superseded_of_isOpen hopen] at hsup ⊢
      cases hsup
      refine .inr ⟨e, he, hserver, hwithin.hasBuild, fun {v} hv => ?_⟩
      rw [Defect.isOpen, hv] at htarget
      cases htarget
  · rw [(firstDefect_sameStanding now i b s).supersededBy] at hsup
    cases hsup

theorem dated_placed (hs : s.Sound) (hdesc : s.Descending) (h : s.Dated now) (i : Issue)
    (b : BuildSnapshot) : (placed now i b s).Dated now := by
  have hw := hs.wellFormed
  refine h.of_origin hw hdesc (fun hle hd' => ?_) (fun hlt hd' => ?_) fun hd' hsup he' => ?_
  · rcases becomes_of_find?_placed hw hd' with ⟨d, hd, hb⟩ | ⟨-, hnext, -⟩
    · exact ⟨d, hd, hb.develops hw (hw.keyed hd ▸ hd)⟩
    · omega
  · rcases becomes_of_find?_placed hw hd' with ⟨d, hd, -⟩ | ⟨-, -, rfl⟩
    · exact absurd (hw.bounded hd) (by omega)
    · exact (firstDefect_sameStanding now i b s).isOpen
  · rcases link_placed hs hd' hsup with hlink | ⟨e, he, hprecedes⟩
    · exact .inl hlink
    · cases he.symm.trans he'
      exact .inr hprecedes

theorem dated_outcome {s : Stores} (hs : s.defects.Sound) (hdesc : s.defects.Descending)
    (h : s.defects.Dated now) (cfg : ClusteringConfig) : (outcome cfg now s).2.Dated now := by
  have hall : (outcome cfg now s).2.Sound ∧ (outcome cfg now s).2.Descending ∧
      (outcome cfg now s).2.Dated now :=
    outcome_induction (P := fun ds => ds.Sound ∧ ds.Descending ∧ ds.Dated now) ⟨hs, hdesc, h⟩
      fun i b _ _ ⟨hs, hdesc, h⟩ => ⟨sound_placed hs now i b,
        descending_placed hs.wellFormed hdesc now i b, dated_placed hs hdesc h i b⟩
  exact hall.2.2

/-- A pass makes no link dangle. -/
theorem dangles_outcome {s : Stores} (hs : s.defects.Sound) (cfg : ClusteringConfig)
    {id target : Nat} (h : (outcome cfg now s).2.Dangles id target) :
    s.defects.Dangles id target := by
  have hall : (outcome cfg now s).2.Sound ∧
      ((outcome cfg now s).2.Dangles id target → s.defects.Dangles id target) := by
    refine outcome_induction
      (P := fun ds => ds.Sound ∧ (ds.Dangles id target → s.defects.Dangles id target))
      ⟨hs, fun hdangles => hdangles⟩ ?_
    rintro i b ds - ⟨hds, hback⟩
    refine ⟨sound_placed hds now i b, fun hdangles => hback ?_⟩
    obtain ⟨⟨d', hd', hsup⟩, hgone⟩ := hdangles
    rcases link_placed hds hd' hsup with hlink | ⟨e, he, -⟩
    · exact .of_grows (grows_placed hds.wellFormed now i b) ⟨⟨d', hd', hsup⟩, hgone⟩ hlink
    · cases he.symm.trans hgone
  exact hall.2 h

end Clustering

/-! ### Operations -/

namespace Operation

variable {s : Stores} {now : Timestamp}

/-- The time that the operation takes from the clock. -/
def time? : Operation → Option Timestamp
  | cluster _ now | resolve now _ _ | clean _ now => some now
  | _ => none

/-- The operations by which a person removes a defect. -/
def discards : Operation → Bool
  | discardBroken _ _ => true
  | _ => false

theorem develops_resolved (user : String) (d : Defect) :
    d.Develops now (resolved now user d) ∧ (resolved now user d).supersededBy = d.supersededBy := by
  unfold resolved
  cases ho : d.isOpen with
  | true =>
    rw [resolution_of_isOpen ho]
    exact ⟨.of_same rfl rfl (.inr ⟨ho, rfl⟩), rfl⟩
  | false =>
    rw [resolution_of_not_isOpen ho]
    exact ⟨.refl d, rfl⟩

/-- An operation at the time of the clock, or one that takes no notice of it, keeps records dated. -/
theorem dated_run (hs : s.defects.Sound) (hdesc : s.defects.Descending) (h : s.defects.Dated now)
    (o : Operation) (ho : ∀ t, o.time? = some t → t = now) : (o.run s).defects.Dated now := by
  have hw := hs.wellFormed
  cases o with
  | saveIssue i => exact h
  | putBuild b => exact h
  | removeBuild r => exact h
  | cluster cfg t =>
    obtain rfl := ho t rfl
    rw [defects_cluster hw]
    exact dated_outcome hs hdesc h cfg
  | resolve t k user =>
    obtain rfl := ho t rfl
    rw [run, Pass.after_eq, exec_resolve_snd]
    refine h.of_kept hw hdesc fun {id d'} hd' => ?_
    rw [find?_alter] at hd'
    split at hd'
    · obtain ⟨d, hd, rfl⟩ := Option.map_eq_some_iff.1 hd'
      exact ⟨d, hd, develops_resolved user d⟩
    · exact ⟨d', hd', .refl d', rfl⟩
  | checkConsistency =>
    rw [run, Pass.after_eq, exec_checkConsistency hw.isKeyed]
    refine h.of_kept hw hdesc fun {id d'} hd' => ?_
    rw [find?_remarked hw.isKeyed] at hd'
    obtain ⟨d, hd, rfl⟩ := Option.map_eq_some_iff.1 hd'
    exact ⟨d, hd, .of_same rfl rfl (.inl rfl), rfl⟩
  | clean cfg t =>
    rw [run, Pass.after_eq]
    refine h.of_kept hw hdesc fun {id d'} hd' => ?_
    rcases find?_clean hw.isKeyed cfg t id with he | he | ⟨he, -⟩
    · exact ⟨d', he.symm.trans hd', .refl d', rfl⟩
    · obtain ⟨d, hd, rfl⟩ := Option.map_eq_some_iff.1 (he.symm.trans hd')
      exact ⟨d, hd, .of_same rfl rfl (.inl rfl), rfl⟩
    · cases he.symm.trans hd'
  | discardBroken k user =>
    rw [run, Pass.after_eq]
    refine h.of_kept hw hdesc fun {id d'} hd' => ?_
    obtain ⟨d, hd, -⟩ := (trimmed_discardBroken s k user).kept hd'
    rcases find?_discardBroken k user hd with he | ⟨he, -⟩
    · cases hd'.symm.trans he
      exact ⟨d', hd, .refl d', rfl⟩
    · cases he.symm.trans hd'

/-- Only a removal makes a link dangle. -/
theorem dangles_run (hs : s.defects.Sound) (hu : s.defects.Unsigned) {o : Operation}
    (ho : o.removes = false) {id target : Nat} (h : (o.run s).defects.Dangles id target) :
    s.defects.Dangles id target := by
  have hw := hs.wellFormed
  rcases o.trimmed_run hw with ⟨cfg, now, rfl⟩ | htrimmed
  · rw [defects_cluster hw] at h
    exact dangles_outcome hs cfg h
  · obtain ⟨d', hd', hsup⟩ := h.1
    obtain ⟨d, hd, -, -, -, hsame, -⟩ := htrimmed.kept hd'
    exact .of_grows (o.grows_run hw hu ho) h ⟨d, hd, hsame.symm.trans hsup⟩

end Operation

/-! ### Removal runs -/

/-- The run removes `target` and leaves `id`, which is overdue as well: the budget ends between them. -/
def Cleaning.Severs (cfg : CleanerConfig) (now : Timestamp) (s : Stores) (id target : Nat) : Prop :=
  cfg.enabled = true ∧ ∃ threshold, now.minusDays cfg.safeDays = .ok threshold ∧
    target ∈ overdueIds s threshold cfg.budget ∧ id ∉ overdueIds s threshold cfg.budget ∧
    (∃ d, s.defects.find? id = some d ∧ d.supersededBy = some target ∧
      isOverdue s.builds threshold d = true) ∧
    cfg.budget < (s.defects.all.filter (isOverdue s.builds threshold)).length

namespace Cleaning

variable {s : Stores} {now : Timestamp} {cfg : CleanerConfig} {threshold : Timestamp} {id target : Nat}
  {d : Defect}

/-- A link that dangles after a run did so before, or is severed by the run. -/
theorem severs_of_dangles (hs : s.defects.WellFormed) (hdated : s.defects.Dated now)
    (h : ((clean cfg now).exec s).2.defects.Dangles id target) :
    s.defects.Dangles id target ∨ Severs cfg now s id target := by
  obtain ⟨⟨d', hd', hsup'⟩, hgone⟩ := h
  obtain ⟨d, hd, -, -, -, hsame, -⟩ := (trimmed_clean hs cfg now).kept hd'
  have hsup : d.supersededBy = some target := hsame.symm.trans hsup'
  cases he : s.defects.find? target with
  | none => exact .inl ⟨⟨d, hd, hsup⟩, he⟩
  | some e =>
    have hprecedes := hdated.link hd hsup he
    rcases find?_clean hs.isKeyed cfg now target with hkept | hmark | ⟨-, e', he', henabled, hwindow⟩
    · cases he.symm.trans (hkept.symm.trans hgone)
    · rw [he, hgone] at hmark
      cases hmark
    · cases he.symm.trans he'
      obtain ⟨threshold, ht, hover⟩ := hwindow
      rw [exec_clean_of_ok hs.isKeyed henabled ht] at hgone hd'
      have hstays : id ∉ overdueIds s threshold cfg.budget := fun hid => by
        have hnone := find?_remaining hs.isKeyed threshold cfg.budget id
        rw [if_pos hid] at hnone
        cases hd'.symm.trans hnone
      have hgoes : target ∈ overdueIds s threshold cfg.budget := by
        by_contra hnot
        have hsome := find?_remaining hs.isKeyed threshold cfg.budget target
        rw [if_neg hnot, he] at hsome
        cases hsome.symm.trans hgone
      -- what makes the run remove the target holds of the defect as well
      have hdover := hprecedes.isOverdue hover
      refine .inr ⟨henabled, threshold, ht, hgoes, hstays, ⟨d, hd, hsup, hdover⟩, ?_⟩
      by_contra hle
      exact hstays (mem_overdueIds_of_le hs.isKeyed hd hdover (Nat.le_of_not_lt hle))

theorem Severs.spent (hs : s.defects.WellFormed) (h : Severs cfg now s id target) :
    ((Operation.clean cfg now).run s).defects.Spent target := by
  obtain ⟨henabled, threshold, ht, hgoes, -⟩ := h
  obtain ⟨e, hmem, rfl⟩ := List.mem_map.1 hgoes
  have he := hs.find?_of_mem_all (List.mem_of_mem_filter (List.mem_of_mem_take hmem))
  refine ⟨(hs.bounded he).trans (Operation.lastId_le_run hs _), ?_⟩
  have hnone := find?_remaining hs.isKeyed threshold cfg.budget e.id
  rw [if_pos hgoes] at hnone
  rw [Operation.run, Pass.after_eq, exec_clean_of_ok hs.isKeyed henabled ht]
  exact hnone

end Cleaning

/-! ### Histories -/

/-- The clock never goes back, and nobody removes a broken defect. -/
structure Chronicle (os : List Operation) : Prop where
  ordered : (os.filterMap Operation.time?).Pairwise (· ≤ ·)
  keeps : ∀ o ∈ os, o.discards = false

namespace Chronicle

open Operation

variable {os : List Operation} {o : Operation} {id target : Nat} {now : Timestamp}

theorem runAll_concat (os : List Operation) (o : Operation) (s : Stores) :
    runAll (os ++ [o]) s = o.run (runAll os s) := List.foldl_concat ..

theorem before_concat (h : Chronicle (os ++ [o])) :
    Chronicle os ∧ ∀ t, o.time? = some t → ∀ t' ∈ os.filterMap time?, t' ≤ t := by
  obtain ⟨hordered, hkeeps⟩ := h
  rw [List.filterMap_append, List.pairwise_append] at hordered
  obtain ⟨hordered, -, hle⟩ := hordered
  exact ⟨⟨hordered, fun o' ho' => hkeeps o' (List.mem_append_left _ ho')⟩,
    fun t ht t' ht' => hle t' ht' t (by simp [ht])⟩

/-- The records are dated at the last time of the history and at any later one. -/
theorem dated (h : Chronicle os) (hle : ∀ t ∈ os.filterMap time?, t ≤ now) :
    (runAll os .empty).defects.Dated now := by
  induction os using List.reverseRecOn generalizing now with
  | nil => exact ⟨fun hd => (by cases hd), fun hd => (by cases hd)⟩
  | append_singleton os o ih =>
    obtain ⟨hbefore, hlast⟩ := h.before_concat
    have hr := Reachable.empty.runAll os
    rw [runAll_concat]
    cases ho : o.time? with
    | some t =>
      have hnow : t ≤ now := hle t (by simp [ho])
      refine (dated_run hr.sound hr.descending (ih hbefore (hlast t ho)) o fun t' ht' => ?_).later hnow
      exact Option.some.inj (ht'.symm.trans ho)
    | none =>
      have hold := ih hbefore fun t ht => hle t (by simp [ht])
      exact dated_run hr.sound hr.descending hold o fun t ht => by cases ho.symm.trans ht

/-- A link that dangles has been severed. -/
theorem exists_severs (h : Chronicle os) (hd : (runAll os .empty).defects.Dangles id target) :
    ∃ pre cfg now post, os = pre ++ .clean cfg now :: post ∧
      Severs cfg now (runAll pre .empty) id target := by
  induction os using List.reverseRecOn with
  | nil =>
    obtain ⟨⟨d, hd, -⟩, -⟩ := hd
    cases hd
  | append_singleton os o ih =>
    obtain ⟨hbefore, hlast⟩ := h.before_concat
    have hr := Reachable.empty.runAll os
    have hstep : (runAll os .empty).defects.Dangles id target →
        ∃ pre cfg now post, os ++ [o] = pre ++ .clean cfg now :: post ∧
          Severs cfg now (runAll pre .empty) id target := by
      intro hdangles
      obtain ⟨pre, cfg, now, post, rfl, hsevers⟩ := ih hbefore hdangles
      exact ⟨pre, cfg, now, post ++ [o], by simp, hsevers⟩
    rw [runAll_concat] at hd
    cases hremoves : o.removes with
    | false => exact hstep (dangles_run hr.sound hr.unsigned hremoves hd)
    | true =>
      cases o with
      | clean cfg now =>
        rcases severs_of_dangles hr.sound.wellFormed (hbefore.dated (hlast now rfl)) hd with
          hdangles | hsevers
        · exact hstep hdangles
        · exact ⟨os, cfg, now, [], rfl, hsevers⟩
      | discardBroken k user => cases h.keeps (.discardBroken k user) (by simp)
      | saveIssue => cases hremoves
      | putBuild => cases hremoves
      | removeBuild => cases hremoves
      | cluster => cases hremoves
      | resolve => cases hremoves
      | checkConsistency => cases hremoves

/-- The defect that took another one over is still stored, unless a removal run took it away and left the
other one, which was as overdue, because its budget ended between the two. -/
theorem dangles_iff (h : Chronicle os) {d : Defect}
    (hd : (runAll os .empty).defects.find? id = some d) (hsup : d.supersededBy = some target) :
    (runAll os .empty).defects.find? target = none ↔
      ∃ pre cfg now post, os = pre ++ .clean cfg now :: post ∧
        Severs cfg now (runAll pre .empty) id target := by
  constructor
  · exact fun hgone => h.exists_severs ⟨⟨d, hd, hsup⟩, hgone⟩
  · rintro ⟨pre, cfg, now, post, rfl, hsevers⟩
    have hr := Reachable.empty.runAll pre
    have hspent := spent_runAll (.run (.clean cfg now) hr) (hsevers.spent hr.sound.wellFormed) post
    have hsplit : runAll (pre ++ .clean cfg now :: post) .empty =
        runAll post ((Operation.clean cfg now).run (runAll pre .empty)) := List.foldl_append
    rw [hsplit]
    exact hspent.gone

/-- The second defect has been taken over by the first, which a person resolved at once.  Two hundred
days later a run may remove one defect only. -/
def severed : List Operation :=
  bridging ++ [.cluster .default bridgeTime, .resolve bridgeTime 1 "dev01",
    .clean { CleanerConfig.default with budget := 1 } lateTime]

theorem chronicle_severed : Chronicle severed := ⟨by decide, by decide⟩

theorem dangles_of_severed : ∃ d, (runAll severed .empty).defects.find? 2 = some d ∧
    d.supersededBy = some 1 ∧ (runAll severed .empty).defects.find? 1 = none := by
  have hsecond : ((runAll severed .empty).defects.find? 2).any (fun d =>
      d.supersededBy = some 1) = true := by decide +kernel
  obtain ⟨d, hd, hsup⟩ := (Option.any_eq_true _ _).1 hsecond
  exact ⟨d, hd, of_decide_eq_true hsup, by decide +kernel⟩

/-- The run that is found to have severed the link is the only one. -/
theorem dangles_iff_severed :
    Chronicle severed ∧ ∃ d, (runAll severed .empty).defects.find? 2 = some d ∧
      d.supersededBy = some 1 ∧
      ∃ pre cfg now post, severed = pre ++ .clean cfg now :: post ∧
        Severs cfg now (runAll pre .empty) 2 1 := by
  obtain ⟨d, hd, hsup, hgone⟩ := dangles_of_severed
  exact ⟨chronicle_severed, d, hd, hsup, (dangles_iff chronicle_severed hd hsup).1 hgone⟩

/-- The run removes the first defect, whose id is the smaller one, and the second keeps naming it. -/
theorem superseded_by_removed :
    Chronicle severed ∧ (runAll severed .empty).defects.all.map (·.id) = [2] ∧
      ∃ d, (runAll severed .empty).defects.find? 2 = some d ∧ d.supersededBy = some 1 ∧
        (runAll severed .empty).defects.find? 1 = none :=
  ⟨chronicle_severed, by decide +kernel, dangles_of_severed⟩

end Chronicle

end Triage
