import RomCloud.Containers.Ps1Allocation
import RomCloud.Containers.Ps1Hash

namespace RomCloud.Containers.Ps1

open Lib
open SaveSync (ContainerEntry ContainerSnapshot sortedByIdentity)

/-!
# The card that a plan makes

Whatever the plan, rebuilding an accepted card writes only blocks of the saves that go or are
replaced, and free blocks; it stops before that when the free blocks do not suffice.

* `Extracted` — a replacement whose payload was read from an accepted card;
* `RebuildPlan.resulting`, `RebuildPlan.needed`, `RebuildPlan.touched` — the entries that result,
  the free blocks that are taken, and all blocks that are written;
* `Removing`, `Replacing` — what holds after each round of the two loops;
* `Rebuilt`, `rebuild_outcome` — the card that results, and what `rebuild` does.
-/

/-! ### Plans -/

/-- The payload was read from an accepted card, with its entry. -/
def Extracted (sha256 : Bytes → String) (replacement : EntryReplacement) : Prop :=
  ∃ source card entry, parse sha256 source = .ok card ∧ entry ∈ card.live
    ∧ replacement.entry = containerEntry entry ∧ replacement.extracted = extracted entry

namespace RebuildPlan

variable (plan : RebuildPlan) (card : ParsedCard)

/-- The free blocks that a replacement takes: what the save has grown by. -/
def neededFor (identity : String) : ℕ :=
  (plan.replacement? identity).elim 0 fun replacement =>
    replacement.extracted.payload.dataBlocks.length - (oldBlocks card identity).length

/-- The free blocks that the plan takes. -/
def needed : ℕ := (plan.replaced.map (plan.neededFor card)).sum

/-- The entries that some identities get. -/
def written (identities : List String) : List ContainerEntry :=
  identities.filterMap fun identity => (plan.replacement? identity).map (·.entry)

/-- The saves that stay as they are. -/
def kept : List ParsedEntry :=
  card.live.filter fun entry => entry.identity ∉ plan.removed card ∧ entry.identity ∉ plan.replaced

/-- The entries that result. -/
def resulting : List ContainerEntry :=
  sortedByIdentity ((plan.kept card).map containerEntry ++ plan.written plan.replaced)

/-- The blocks that are written: those of the saves that go or are replaced, and free ones. -/
def touched : List Block :=
  (plan.removed card).flatMap (oldBlocks card) ++ plan.replaced.flatMap (oldBlocks card)
    ++ card.freeBlocks.take (plan.needed card)

end RebuildPlan

variable {sha256 : Bytes → String} {raw : Bytes} {card : ParsedCard} {plan : RebuildPlan}

theorem exists_replacement {identity : String} (h : identity ∈ plan.replaced) :
    ∃ replacement ∈ plan.replacements, plan.replacement? identity = some replacement
      ∧ replacement.entry.identity = identity := by
  rw [RebuildPlan.replaced, mem_sortedSet] at h
  obtain ⟨item, hitem, hid⟩ := List.mem_map.mp h
  cases hfound : plan.replacement? identity with
  | none =>
    have hnone := List.find?_eq_none.mp hfound item (List.mem_reverse.mpr hitem)
    exact absurd hid (by simpa using hnone)
  | some found =>
    have hmem := List.mem_reverse.mp (List.mem_of_find?_eq_some hfound)
    exact ⟨found, hmem, rfl, by simpa using List.find?_some hfound⟩

/-- The entry of an identity, and the blocks that it has. -/
theorem existing_cases (card : ParsedCard) (identity : String) :
    (existing card identity = none ∧ oldBlocks card identity = []
        ∧ ∀ entry ∈ card.live, entry.identity ≠ identity)
      ∨ ∃ entry ∈ card.live, existing card identity = some entry ∧ entry.identity = identity
        ∧ oldBlocks card identity = entry.blocks := by
  cases hfound : existing card identity with
  | none =>
    refine Or.inl ⟨rfl, by rw [oldBlocks, hfound]; rfl, fun entry hentry => ?_⟩
    simpa using List.find?_eq_none.mp hfound entry hentry
  | some entry =>
    refine Or.inr ⟨entry, List.mem_of_find?_eq_some hfound, rfl, ?_, by rw [oldBlocks, hfound]; rfl⟩
    simpa using List.find?_some hfound

/-- A filter that leaves out one entry more. -/
theorem perm_filter_cons {entries : List ParsedEntry} (hnodup : entries.Nodup)
    {p q : ParsedEntry → Prop} [DecidablePred p] [DecidablePred q] {entry : ParsedEntry}
    (hentry : entry ∈ entries)
    (hq : ¬ q entry) (h : ∀ x ∈ entries, p x ↔ q x ∨ x = entry) :
    (entries.filter p).Perm (entry :: entries.filter q) := by
  refine (List.perm_ext_iff_of_nodup (hnodup.filter _) ?_).mpr fun x => ?_
  · refine List.nodup_cons.mpr ⟨fun hmem => ?_, hnodup.filter _⟩
    exact hq (by simpa using (List.mem_filter.mp hmem).2)
  · rw [List.mem_cons, List.mem_filter, List.mem_filter, decide_eq_true_eq, decide_eq_true_eq]
    constructor
    · rintro ⟨hx, hp⟩
      rcases (h x hx).mp hp with hq | rfl
      · exact Or.inr ⟨hx, hq⟩
      · exact Or.inl rfl
    · rintro (rfl | ⟨hx, hq⟩)
      · exact ⟨hentry, (h x hentry).mpr (Or.inr rfl)⟩
      · exact ⟨hx, (h x hx).mpr (Or.inl hq)⟩

/-! ### The removals -/

/-- What holds once some identities are removed. -/
structure Removing (sha256 : Bytes → String) (card : ParsedCard) (done : List String) (raw : Bytes)
    (deleted : List (List Block)) : Prop where
  layout : Layout sha256 raw (card.live.filter fun entry => entry.identity ∉ done) deleted
    card.freeBlocks []
  chains : ∀ entry ∈ card.live, entry.identity ∈ done → entry.blocks ∈ deleted
  rewrites : Rewrites card.raw raw (done.flatMap (oldBlocks card))

theorem removing_step {identity : String} {done : List String} {deleted : List (List Block)}
    (hcard : (card.live.map (·.identity)).Nodup) (h : Removing sha256 card done raw deleted)
    (hnew : identity ∉ done) :
    ∃ raw' deleted', removeIdentity card raw identity = .ok raw'
      ∧ Removing sha256 card (done ++ [identity]) raw' deleted' := by
  rcases existing_cases card identity with
    ⟨hnone, hold, hothers⟩ | ⟨entry, hentry, hsome, hid, hold⟩
  · have hfilter : (card.live.filter fun entry => entry.identity ∉ done ++ [identity])
        = card.live.filter fun entry => entry.identity ∉ done := by
      refine List.filter_congr fun entry hentry => ?_
      have hne := hothers entry hentry
      simp [hne]
    refine ⟨raw, deleted, by rw [removeIdentity, hnone], ?_, fun entry hentry hin => ?_, ?_⟩
    · rw [hfilter]
      exact h.layout
    · rcases List.mem_append.mp hin with hin | hin
      · exact h.chains entry hentry hin
      · exact absurd (List.mem_singleton.mp hin) (hothers entry hentry)
    · exact h.rewrites.mono fun block hblock => by simp [hblock]
  · have hperm : (card.live.filter fun e => e.identity ∉ done).Perm
        (entry :: card.live.filter fun e => e.identity ∉ done ++ [identity]) := by
      refine perm_filter_cons (.of_map _ hcard) hentry (by simp [hid]) fun x hx => ?_
      have hsame : x.identity = identity ↔ x = entry :=
        ⟨fun heq => List.inj_on_of_nodup_map hcard hx hentry (heq.trans hid.symm),
          fun heq => heq ▸ hid⟩
      simp only [List.mem_append, List.mem_singleton, hsame, not_or]
      constructor
      · intro hx'
        by_cases heq : x = entry
        · exact Or.inr heq
        · exact Or.inl ⟨hx', heq⟩
      · rintro (⟨hx', -⟩ | rfl)
        · exact hx'
        · rw [hid]
          exact hnew
    have hreleased := (h.layout.reorder hperm (.refl _) (.refl _)).releaseLive
    have hne : entry.blocks ≠ [] := by
      have hin : entry ∈ card.live.filter fun e => e.identity ∉ done :=
        List.mem_filter.mpr ⟨hentry, by simpa [hid] using hnew⟩
      exact Layout.isChain_ne_nil (h.layout.entries entry hin).chain
    obtain ⟨raw', hmarked, hrewrites, -, hlayout⟩ := hreleased.markDeleted hne
    refine ⟨raw', entry.blocks :: deleted, by rw [removeIdentity, hsome]; exact hmarked, hlayout,
      fun other hother hin => ?_, ?_⟩
    · rcases List.mem_append.mp hin with hin | hin
      · exact List.mem_cons_of_mem _ (h.chains other hother hin)
      · have heq : other.identity = entry.identity := (List.mem_singleton.mp hin).trans hid.symm
        rw [List.inj_on_of_nodup_map hcard hother hentry heq]
        exact List.mem_cons_self
    · refine (h.rewrites.trans hrewrites).mono fun block hblock => ?_
      rw [List.flatMap_append, List.flatMap_singleton, hold]
      exact hblock

/-- **The removals.** They always succeed. -/
theorem removing_run {identities : List String} (hnodup : identities.Nodup)
    (hcard : (card.live.map (·.identity)).Nodup) {deleted : List (List Block)}
    (hlayout : Layout sha256 card.raw card.live deleted card.freeBlocks []) :
    ∃ raw' deleted', identities.foldlM (removeIdentity card) card.raw = .ok raw'
      ∧ Removing sha256 card identities raw' deleted' := by
  have hgen : ∀ (rest done : List String) (raw : Bytes) (deleted : List (List Block)),
      identities = done ++ rest → Removing sha256 card done raw deleted →
      ∃ raw' deleted', rest.foldlM (removeIdentity card) raw = .ok raw'
        ∧ Removing sha256 card identities raw' deleted' := by
    intro rest
    induction rest with
    | nil =>
      intro done raw deleted hsplit hdone
      rw [List.append_nil] at hsplit
      exact ⟨raw, deleted, rfl, hsplit ▸ hdone⟩
    | cons identity rest ih =>
      intro done raw deleted hsplit hdone
      have hnew : identity ∉ done := by
        rw [hsplit] at hnodup
        exact fun hmem => (List.nodup_append.mp hnodup).2.2 identity hmem identity
          List.mem_cons_self rfl
      obtain ⟨next, chains, hstep, hnext⟩ := removing_step hcard hdone hnew
      obtain ⟨raw', deleted', hrun, hall⟩ :=
        ih (done ++ [identity]) next chains (by rw [hsplit, List.append_assoc]; rfl) hnext
      exact ⟨raw', deleted', by rw [List.foldlM_cons, hstep]; exact hrun, hall⟩
  refine hgen identities [] card.raw deleted rfl ⟨?_, by simp, .refl _⟩
  rw [List.filter_eq_self.mpr (by simp)]
  exact hlayout

/-! ### The replacements -/

/-- The blocks that are written for some identities, and the free blocks that they take. -/
def RebuildPlan.taken (plan : RebuildPlan) (card : ParsedCard) (done : List String) : ℕ :=
  (done.map (plan.neededFor card)).sum

/-- What the card keeps of the saves that are neither removed nor written yet. -/
def RebuildPlan.left (plan : RebuildPlan) (card : ParsedCard) (done : List String) :
    List ParsedEntry :=
  card.live.filter fun entry => entry.identity ∉ plan.removed card ∧ entry.identity ∉ done

/-- A save that holds the payload of a replacement. -/
structure Holding (replacement : EntryReplacement) (entry : ParsedEntry) : Prop where
  same : containerEntry entry = replacement.entry
  filename : entry.filename = replacement.extracted.payload.filename
  dataBlocks : entry.dataBlocks = replacement.extracted.payload.dataBlocks
  frames : List.Forall₂ AgreeOutside entry.frames replacement.extracted.payload.frames

/-- What holds once some identities are written. -/
structure Replacing (sha256 : Bytes → String) (card : ParsedCard) (plan : RebuildPlan)
    (done : List String) (state : Bytes × List Block) (live : List ParsedEntry)
    (deleted : List (List Block)) (written : List ParsedEntry) : Prop where
  layout : Layout sha256 state.1 live deleted state.2 []
  entries : live.Perm (plan.left card done ++ written)
  written : List.Forall₂ (fun identity entry => ∃ replacement,
    plan.replacement? identity = some replacement ∧ Holding replacement entry) done written
  chains : ∀ entry ∈ card.live, entry.identity ∈ plan.removed card → entry.identity ∉ done →
    entry.blocks ∈ deleted
  free : state.2 = card.freeBlocks.drop (plan.taken card done)
  rewrites : Rewrites card.raw state.1 ((plan.removed card).flatMap (oldBlocks card)
    ++ done.flatMap (oldBlocks card) ++ card.freeBlocks.take (plan.taken card done))

section Step

variable {done : List String} {state : Bytes × List Block} {live written : List ParsedEntry}
  {deleted : List (List Block)} {identity : String} {replacement : EntryReplacement}

/-- The blocks that the identity had become spare, whatever they have been since. -/
theorem released (hcard : (card.live.map (·.identity)).Nodup)
    (hblocks : ∀ one ∈ card.live, ∀ other ∈ card.live, one.blocks = other.blocks → one = other)
    (h : Replacing sha256 card plan done state live deleted written) (hnew : identity ∉ done) :
    ∃ live' deleted', Layout sha256 state.1 live' deleted' state.2 (oldBlocks card identity)
      ∧ live'.Perm (plan.left card (done ++ [identity]) ++ written)
      ∧ ∀ entry ∈ card.live, entry.identity ∈ plan.removed card →
        entry.identity ∉ done ++ [identity] → entry.blocks ∈ deleted' := by
  have hchains : ∀ entry ∈ card.live, entry.identity ∈ plan.removed card →
      entry.identity ∉ done ++ [identity] → entry.blocks ∈ deleted :=
    fun entry hentry hremoved hnot => h.chains entry hentry hremoved fun hmem =>
      hnot (List.mem_append_left _ hmem)
  rcases existing_cases card identity with ⟨-, hold, hothers⟩ | ⟨entry, hentry, -, hid, hold⟩
  · -- the identity is new on the card
    have hleft : plan.left card (done ++ [identity]) = plan.left card done := by
      refine List.filter_congr fun entry hentry => ?_
      have hne := hothers entry hentry
      simp [hne]
    rw [hold, hleft]
    exact ⟨live, deleted, h.layout, h.entries, hchains⟩
  · have hsame : ∀ x ∈ card.live, x.identity = identity ↔ x = entry := fun x hx =>
      ⟨fun heq => List.inj_on_of_nodup_map hcard hx hentry (heq.trans hid.symm),
        fun heq => heq ▸ hid⟩
    rw [hold]
    by_cases hremoved : identity ∈ plan.removed card
    · -- its blocks have been marked deleted
      have hleft : plan.left card (done ++ [identity]) = plan.left card done := by
        refine List.filter_congr fun x hx => ?_
        by_cases heq : x = entry
        · simp [heq, hid, hremoved]
        · have hne : x.identity ≠ identity := fun hxid => heq ((hsame x hx).mp hxid)
          simp [hne]
      have hmem := h.chains entry hentry (by rw [hid]; exact hremoved) (by rw [hid]; exact hnew)
      have hreleased :=
        (h.layout.reorder (.refl _) (List.perm_cons_erase hmem) (.refl _)).releaseDeleted
      rw [List.append_nil] at hreleased
      refine ⟨live, deleted.erase entry.blocks, hreleased, hleft ▸ h.entries,
        fun other hother hin hnot => ?_⟩
      refine (List.mem_erase_of_ne fun heq => hnot ?_).mpr (hchains other hother hin hnot)
      rw [hblocks other hother entry hentry heq, hid]
      exact List.mem_append_right _ List.mem_cons_self
    · have hperm : (plan.left card done).Perm (entry :: plan.left card (done ++ [identity])) := by
        refine perm_filter_cons (.of_map _ hcard) hentry (by simp [hid]) fun x hx => ?_
        simp only [List.mem_append, List.mem_singleton, hsame x hx, not_or]
        constructor
        · rintro ⟨hnot, hdone⟩
          by_cases heq : x = entry
          · exact Or.inr heq
          · exact Or.inl ⟨hnot, hdone, heq⟩
        · rintro (⟨hnot, hdone, -⟩ | rfl)
          · exact ⟨hnot, hdone⟩
          · rw [hid]
            exact ⟨hremoved, hnew⟩
      have hreleased := (h.layout.reorder (h.entries.trans (hperm.append_right written)) (.refl _)
        (.refl _)).releaseLive
      rw [List.append_nil] at hreleased
      exact ⟨_, deleted, hreleased, .refl _, hchains⟩

theorem RebuildPlan.taken_append (plan : RebuildPlan) (card : ParsedCard) (done : List String)
    (identity : String) : plan.taken card (done ++ [identity])
      = plan.taken card done + plan.neededFor card identity := by
  simp [RebuildPlan.taken]

/-- What is written has the identities that it is written for. -/
theorem identity_of_written {done : List String} {written : List ParsedEntry}
    (h : List.Forall₂ (fun identity entry => ∃ replacement,
      plan.replacement? identity = some replacement ∧ Holding replacement entry) done written)
    {entry : ParsedEntry} (hentry : entry ∈ written) : entry.identity ∈ done := by
  induction h with
  | nil => exact absurd hentry List.not_mem_nil
  | @cons identity first rest others hfirst _ ih =>
    rcases List.mem_cons.mp hentry with rfl | hrest
    · obtain ⟨replacement, hfound, hholding⟩ := hfirst
      have hid : replacement.entry.identity = identity := by simpa using List.find?_some hfound
      have hsame : entry.identity = replacement.entry.identity :=
        congrArg ContainerEntry.identity hholding.same
      rw [hsame, hid]
      exact List.mem_cons_self
    · exact List.mem_cons_of_mem _ (ih hrest)

/-- **A round of the replacements.** It takes what it needs, or stops. -/
theorem replacing_step (hcard : (card.live.map (·.identity)).Nodup)
    (hblocks : ∀ one ∈ card.live, ∀ other ∈ card.live, one.blocks = other.blocks → one = other)
    (h : Replacing sha256 card plan done state live deleted written) (hnew : identity ∉ done)
    (hfound : plan.replacement? identity = some replacement)
    (hid : replacement.entry.identity = identity) (hextracted : Extracted sha256 replacement) :
    if plan.neededFor card identity ≤ state.2.length then
      ∃ state' live' deleted' written', replaceIdentity card plan state identity = .ok state'
        ∧ Replacing sha256 card plan (done ++ [identity]) state' live' deleted' written'
    else replaceIdentity card plan state identity = .error noCapacity := by
  obtain ⟨source, sourceCard, entry, hparsed, hmem, hentry, hextract⟩ := hextracted
  have hstored := stored_of_parse hparsed hmem
  obtain ⟨live', deleted', hspare, hlive, hchains⟩ := released hcard hblocks h hnew
  obtain ⟨old, hold⟩ : ∃ old, old = oldBlocks card identity := ⟨_, rfl⟩
  rw [← hold] at hspare
  have hrequired : replacement.extracted.payload.dataBlocks.length = entry.blocks.length := by
    rw [hextract]
    exact hstored.length_dataBlocks
  have hneeded : plan.neededFor card identity = entry.blocks.length - old.length := by
    rw [RebuildPlan.neededFor, hfound, Option.elim_some, hrequired, hold]
  have hreusable : (old.take entry.blocks.length).length = min entry.blocks.length old.length :=
    List.length_take
  have htakes : entry.blocks.length - (old.take entry.blocks.length).length
      = plan.neededFor card identity := by omega
  have hhash : replacement.extracted.canonicalHash = replacement.entry.canonicalHash := by
    rw [hextract, hentry]
    rfl
  have hround : replaceIdentity card plan state identity = (do
      require (plan.neededFor card identity ≤ state.2.length) noCapacity
      let released ← (if entry.blocks.length < old.length then
          Ps1.markDeleted state.1 (old.drop entry.blocks.length) else .ok state.1)
      let raw ← Ps1.writeChain released (old.take entry.blocks.length
        ++ state.2.take (plan.neededFor card identity)) (extracted entry).payload
      return (raw, state.2.drop (plan.neededFor card identity))) := by
    rw [replaceIdentity, hfound]
    simp only [hhash, require, if_true, ok_bind, hrequired, ← hold, htakes]
    rw [hextract]
  split
  · next henough =>
    obtain ⟨raw, chains, hmarked, hmarking, hmarkedLayout, hmore⟩ : ∃ raw chains,
        (if entry.blocks.length < old.length then
          Ps1.markDeleted state.1 (old.drop entry.blocks.length) else .ok state.1) = .ok raw
        ∧ Rewrites state.1 raw old
        ∧ Layout sha256 raw live' chains state.2 (old.take entry.blocks.length)
        ∧ ∀ chain ∈ deleted', chain ∈ chains := by
      split
      · next hshrinks =>
        have hne : old.drop entry.blocks.length ≠ [] := by
          rw [ne_eq, List.drop_eq_nil_iff]
          omega
        have hperm : old.Perm (old.drop entry.blocks.length ++ old.take entry.blocks.length) := by
          have hparts := @List.perm_append_comm _ (old.take entry.blocks.length)
            (old.drop entry.blocks.length)
          rwa [List.take_append_drop] at hparts
        obtain ⟨raw, hmarked, hrewrites, -, hlayout⟩ :=
          (hspare.reorder (.refl _) (.refl _) hperm).markDeleted hne
        exact ⟨raw, _, hmarked, hrewrites.mono fun _ hb => List.mem_of_mem_drop hb, hlayout,
          fun chain hchain => List.mem_cons_of_mem _ hchain⟩
      · next hgrows =>
        rw [List.take_of_length_le (by omega)]
        exact ⟨state.1, deleted', rfl, (Rewrites.refl _).mono (by simp), hspare, fun _ h => h⟩
    obtain ⟨taken, htaken⟩ : ∃ taken, taken = state.2.take (plan.neededFor card identity) :=
      ⟨_, rfl⟩
    have hparts : Layout sha256 raw live' chains
        (taken ++ state.2.drop (plan.neededFor card identity)) (old.take entry.blocks.length) := by
      rw [htaken, List.take_append_drop]
      exact hmarkedLayout
    have hready := hparts.takeFree.reorder (.refl _) (.refl _)
      (@List.perm_append_comm _ taken (old.take entry.blocks.length))
    rw [← List.append_nil (_ ++ taken)] at hready
    have hcount : (old.take entry.blocks.length ++ taken).length = entry.blocks.length := by
      rw [List.length_append, hreusable, htaken, List.length_take]
      omega
    have hidentity : entry.identity = identity := by
      rw [← hid, hentry]
      rfl
    have hfresh : entry.identity ∉ live'.map (·.identity) := by
      rw [hidentity]
      intro hin
      obtain ⟨other, hother, heq⟩ := List.mem_map.mp hin
      rcases List.mem_append.mp (hlive.mem_iff.mp hother) with hleft | hwritten
      · have hnot := (List.mem_filter.mp hleft).2
        simp [heq] at hnot
      · exact hnew (heq ▸ identity_of_written h.written hwritten)
    obtain ⟨final, hwrite, hwriting, hagree, hlayout⟩ := hready.writeChain hstored hcount hfresh
    refine ⟨(final, state.2.drop (plan.neededFor card identity)), _, chains,
      written ++ [movedTo entry final (old.take entry.blocks.length ++ taken)], ?_, hlayout, ?_, ?_,
      fun other hother hremoved hnot => hmore _ (hchains other hother hremoved hnot), ?_, ?_⟩
    · rw [hround, require, if_pos henough, ok_bind, hmarked, ok_bind, ← htaken, hwrite]
      rfl
    · rw [← List.append_assoc]
      exact (hlive.cons _).trans (List.perm_append_singleton _ _).symm
    · refine List.rel_append h.written (.cons ⟨replacement, hfound, ?_⟩ .nil)
      refine ⟨(containerEntry_movedTo final hcount).trans hentry.symm, ?_, ?_, ?_⟩ <;>
        rw [hextract]
      · rfl
      · rfl
      · exact hagree
    · show state.2.drop _ = _
      rw [h.free, List.drop_drop, plan.taken_append]
    · refine ((h.rewrites.trans hmarking).trans hwriting).mono fun block hblock => ?_
      rw [plan.taken_append, List.take_add, ← h.free, List.flatMap_append, List.flatMap_singleton,
        ← hold, ← htaken]
      simp only [List.mem_append] at hblock ⊢
      have htake : block ∈ old.take entry.blocks.length → block ∈ old := List.mem_of_mem_take
      tauto
  · next hshort =>
    rw [hround, require, if_neg hshort]
    rfl

/-- **The replacements.** They take what the plan needs, or stop at the first one that the free
blocks do not suffice for. -/
theorem replacing_run (hcard : (card.live.map (·.identity)).Nodup)
    (hblocks : ∀ one ∈ card.live, ∀ other ∈ card.live, one.blocks = other.blocks → one = other)
    (hplan : ∀ replacement ∈ plan.replacements, Extracted sha256 replacement) (rest : List String)
    (hsplit : plan.replaced = done ++ rest)
    (h : Replacing sha256 card plan done state live deleted written) :
    if (rest.map (plan.neededFor card)).sum ≤ state.2.length then
      ∃ state' live' deleted' written', rest.foldlM (replaceIdentity card plan) state = .ok state'
        ∧ Replacing sha256 card plan plan.replaced state' live' deleted' written'
    else rest.foldlM (replaceIdentity card plan) state = .error noCapacity := by
  induction rest generalizing done state live deleted written with
  | nil =>
    rw [List.append_nil] at hsplit
    rw [List.map_nil, List.sum_nil, if_pos (Nat.zero_le _), hsplit]
    exact ⟨state, live, deleted, written, rfl, h⟩
  | cons identity rest ih =>
    have hmem : identity ∈ plan.replaced := by
      rw [hsplit]
      exact List.mem_append_right _ List.mem_cons_self
    have hnew : identity ∉ done := by
      have hnodup : plan.replaced.Nodup := sortedSet_nodup _
      rw [hsplit] at hnodup
      exact fun hin =>
        (List.nodup_append.mp hnodup).2.2 identity hin identity List.mem_cons_self rfl
    obtain ⟨replacement, hreplacement, hfound, hid⟩ := exists_replacement hmem
    have hstep := replacing_step hcard hblocks h hnew hfound hid (hplan replacement hreplacement)
    rw [List.map_cons, List.sum_cons]
    split at hstep
    · next henough =>
      obtain ⟨state', live', deleted', written', hround, hnext⟩ := hstep
      have hrest := ih (by rw [hsplit, List.append_assoc]; rfl) hnext
      have hbefore := congrArg List.length h.free
      have hafter := congrArg List.length hnext.free
      rw [List.length_drop] at hbefore hafter
      rw [plan.taken_append] at hafter
      have hlength : (rest.map (plan.neededFor card)).sum ≤ state'.2.length
          ↔ plan.neededFor card identity + (rest.map (plan.neededFor card)).sum
            ≤ state.2.length := by omega
      rw [List.foldlM_cons, hround]
      simp only [hlength] at hrest
      exact hrest
    · next hshort =>
      rw [if_neg (by omega), List.foldlM_cons, hstep]
      rfl

end Step

theorem map_written {done : List String} {written : List ParsedEntry}
    (h : List.Forall₂ (fun identity entry => ∃ replacement,
      plan.replacement? identity = some replacement ∧ Holding replacement entry) done written) :
    written.map containerEntry = plan.written done := by
  induction h with
  | nil => rfl
  | cons hfirst _ ih =>
    obtain ⟨replacement, hfound, hholding⟩ := hfirst
    rw [List.map_cons, ih, RebuildPlan.written, RebuildPlan.written,
      List.filterMap_cons_some (by rw [hfound]; rfl), hholding.same]

/-! ### The card that results -/

/-- What rebuilding makes of a card. -/
structure Rebuilt (sha256 : Bytes → String) (card : ParsedCard) (plan : RebuildPlan) (raw' : Bytes)
    (card' : ParsedCard) : Prop where
  accepted : parse sha256 raw' = .ok card'
  entries : card'.live.map containerEntry = plan.resulting card
  /-- the other saves are where they were -/
  kept : ∀ entry ∈ plan.kept card, entry ∈ card'.live
  stored : ∀ identity ∈ plan.replaced, ∃ entry ∈ card'.live, ∃ replacement,
    plan.replacement? identity = some replacement ∧ Holding replacement entry
  free : card'.freeBlocks = card.freeBlocks.drop (plan.needed card)
  untouched : Rewrites card.raw raw' (plan.touched card)

/-- Lists of different entries are equal once they are in the order of their identities. -/
theorem sortedByIdentity_eq {entries others : List ContainerEntry} (h : entries.Perm others)
    (hnodup : (entries.map (·.identity)).Nodup)
    (hsorted : entries.Pairwise fun a b => a.identity ≤ b.identity) :
    entries = sortedByIdentity others := by
  have hperm : entries.Perm (sortedByIdentity others) :=
    h.trans (List.perm_insertionSort _ _).symm
  refine hperm.eq_of_pairwise (fun a b ha hb hab hba => ?_) hsorted
    (List.pairwise_insertionSort (fun a b : ContainerEntry => a.identity ≤ b.identity) others)
  exact List.inj_on_of_nodup_map hnodup ha (hperm.mem_iff.mpr hb) (le_antisymm hab hba)

theorem rebuilt_of_replacing {state : Bytes × List Block} {live written : List ParsedEntry}
    {deleted : List (List Block)}
    (hfree : card.freeBlocks = dataBlocks.filter (· ∈ card.freeBlocks))
    (h : Replacing sha256 card plan plan.replaced state live deleted written) :
    ∃ card', Rebuilt sha256 card plan state.1 card' := by
  obtain ⟨card', hparsed, hperm, hsorted, hfree'⟩ := h.layout.parse
  have hentries : (card'.live.map containerEntry).Perm
      ((plan.kept card).map containerEntry ++ plan.written plan.replaced) := by
    have hall := (hperm.trans h.entries).map containerEntry
    rwa [List.map_append, map_written h.written] at hall
  refine ⟨card', hparsed, sortedByIdentity_eq hentries ?_ ?_, fun entry hentry => ?_,
    fun identity hidentity => ?_, ?_, h.rewrites⟩
  · rw [List.map_map]
    exact (hperm.map _).nodup_iff.mpr h.layout.identities
  · exact List.pairwise_map.mpr hsorted
  · exact (hperm.trans h.entries).mem_iff.mpr (List.mem_append_left _ hentry)
  · obtain ⟨i, hi, rfl⟩ := List.getElem_of_mem hidentity
    have hi' : i < written.length := h.written.length_eq ▸ hi
    refine ⟨written.get ⟨i, hi'⟩, ?_, h.written.get hi hi'⟩
    exact (hperm.trans h.entries).mem_iff.mpr (List.mem_append_right _ (List.get_mem _ _))
  · rw [hfree', h.free]
    have hincreasing : dataBlocks.Pairwise (· < ·) := List.pairwise_lt_finRange 15
    refine eq_of_pairwise_lt (hincreasing.filter _) ?_ fun block => ?_
    · refine List.Pairwise.sublist (List.drop_sublist _ _) ?_
      rw [hfree]
      exact hincreasing.filter _
    · rw [List.mem_filter, decide_eq_true_eq]
      exact and_iff_right (List.mem_finRange block)

/-- **Rebuilding a card.** The plan is refused, or the free blocks do not suffice, or the card that
results has the entries of the plan, or is discarded since it has not; every other save is where it
was. -/
theorem rebuild_outcome (h : parse sha256 raw = .ok card)
    (hplan : ∀ replacement ∈ plan.replacements, Extracted sha256 replacement) :
    ∃ raw' card', (plan.needed card ≤ card.freeBlocks.length → Rebuilt sha256 card plan raw' card')
      ∧ rebuild sha256 raw plan
        = if ∃ identity ∈ plan.replaced, identity ∉ plan.expected.entries.map (·.identity) then
            .error (invalid "")
          else if card.freeBlocks.length < plan.needed card then .error noCapacity
          else if plan.expected.entries = plan.resulting card then .ok raw'
          else .error (invalid "candidate logical snapshot differs from plan") := by
  obtain ⟨hraw, deleted, hlayout⟩ := layout_of_parse h
  have hcard := hlayout.identities
  have hblocks : ∀ one ∈ card.live, ∀ other ∈ card.live, one.blocks = other.blocks →
      one = other := by
    intro one hone other hother heq
    obtain ⟨first, hfirst⟩ := (hlayout.entries one hone).chain.exists_head
    have hmem := List.mem_of_mem_head? hfirst
    exact hlayout.eq_of_mem_blocks hone hother hmem (heq ▸ hmem)
  have hfree : card.freeBlocks = dataBlocks.filter (· ∈ card.freeBlocks) := by
    obtain ⟨same, hsame, -, -, hfilter⟩ := hlayout.parse
    cases h.symm.trans hsame
    exact hfilter
  obtain ⟨removed, chains, hremoving, hremoved⟩ :=
    removing_run (show (plan.removed card).Nodup from sortedSet_nodup _) hcard (hraw ▸ hlayout)
  have hbegin : Replacing sha256 card plan [] (removed, card.freeBlocks)
      (card.live.filter fun entry => entry.identity ∉ plan.removed card) chains [] := by
    refine ⟨hremoved.layout, ?_, .nil, fun entry hentry hin _ => hremoved.chains entry hentry hin,
      rfl, hremoved.rewrites.mono fun block hblock => by simp [hblock]⟩
    rw [List.append_nil]
    refine List.Perm.of_eq (List.filter_congr fun entry _ => ?_)
    simp
  have hrun := replacing_run hcard hblocks hplan plan.replaced rfl hbegin
  have hexpected : (plan.replaced.all (· ∈ plan.expected.entries.map (·.identity)) = true)
      ↔ ¬ ∃ identity ∈ plan.replaced, identity ∉ plan.expected.entries.map (·.identity) := by
    rw [List.all_eq_true, not_exists]
    refine forall_congr' fun identity => ?_
    rw [decide_eq_true_eq, not_and, not_not]
  by_cases henough : plan.needed card ≤ card.freeBlocks.length
  · rw [if_pos (show (plan.replaced.map (plan.neededFor card)).sum
      ≤ (removed, card.freeBlocks).2.length from henough)] at hrun
    obtain ⟨state, live, deleted, written, hreplacing, hreplaced⟩ := hrun
    obtain ⟨card', hrebuilt⟩ := rebuilt_of_replacing hfree hreplaced
    refine ⟨state.1, card', fun _ => hrebuilt, ?_⟩
    rw [rebuild, h, ok_bind]
    by_cases hmissing :
        ∃ identity ∈ plan.replaced, identity ∉ plan.expected.entries.map (·.identity)
    · rw [if_pos hmissing, require, if_neg fun hall => hexpected.mp hall hmissing]
      rfl
    · have hvalidate : validate sha256 state.1 plan.expected
          = require (plan.resulting card = plan.expected.entries)
            (invalid "candidate logical snapshot differs from plan") := by
        rw [validate, snapshot, hrebuilt.accepted, ← hrebuilt.entries]
        rfl
      rw [if_neg hmissing, if_neg (by omega), require, if_pos (hexpected.mpr hmissing), ok_bind,
        hremoving, ok_bind, hreplacing, ok_bind, hvalidate, require]
      simp only [eq_comm (a := plan.resulting card)]
      split
      · rfl
      · rfl
  · rw [if_neg (show ¬ (plan.replaced.map (plan.neededFor card)).sum
      ≤ (removed, card.freeBlocks).2.length from henough)] at hrun
    refine ⟨raw, card, fun henough' => absurd henough' henough, ?_⟩
    rw [rebuild, h, ok_bind]
    by_cases hmissing :
        ∃ identity ∈ plan.replaced, identity ∉ plan.expected.entries.map (·.identity)
    · rw [if_pos hmissing, require, if_neg fun hall => hexpected.mp hall hmissing]
      rfl
    · rw [if_neg hmissing, if_pos (by omega), require, if_pos (hexpected.mpr hmissing), ok_bind,
        hremoving, ok_bind, hrun]
      rfl

/-! ### A save for an empty card -/

/-- The directory of a card without saves. -/
def noSave (_ : Block) : Bytes := frameOf .free [0, 0, 0, 0] [0xFF, 0xFF] []

theorem isFrame_noSave (block : Block) : IsFrame (noSave block) := by
  rw [noSave]
  rfl

theorem parse_noSave : ∃ card, parse spell (cardImage blankHeader noSave emptyData) = .ok card
    ∧ card.live = [] ∧ card.freeBlocks = dataBlocks := by
  have hchecks : checkAll (checkFrame noSave) dataBlocks = .ok () := by decide +kernel
  have hlive : parseLive spell noSave emptyData [] dataBlocks = .ok [] := by decide +kernel
  have hdeleted : parseDeleted noSave (consumed []) [] dataBlocks = .ok [] := by decide +kernel
  have hblocks : checkAll (checkBlock noSave (consumed []) []) dataBlocks = .ok () := by
    decide +kernel
  exact ⟨_, parse_cardImage isFrame_blankHeader isFrame_noSave (fun _ => List.length_replicate) rfl
    (by decide +kernel) hchecks hlive hdeleted hblocks, rfl, by decide +kernel⟩

/-- The save of another card is written to an empty one. -/
theorem movedSave_rebuilt : ∃ plan raw' card',
    rebuild spell (cardImage blankHeader noSave emptyData) plan = .ok raw'
      ∧ parse spell raw' = .ok card' ∧ ∃ entry ∈ card'.live, entry.filename = saveName := by
  obtain ⟨source, entry, hsource, hentry, hblocks, hname⟩ :=
    @parse_oneSave 0 (Or.inl rfl)
  obtain ⟨card, hcard, hlive, hfree⟩ := parse_noSave
  obtain ⟨item, hitem⟩ : ∃ item : EntryReplacement,
      item = ⟨containerEntry entry, extracted entry⟩ := ⟨_, rfl⟩
  obtain ⟨plan, hplan⟩ : ∃ plan : RebuildPlan,
      plan = ⟨⟨"card", "", 1, "", [containerEntry entry]⟩, [item], []⟩ := ⟨_, rfl⟩
  have hextracted : ∀ replacement ∈ plan.replacements, Extracted spell replacement := by
    intro replacement hmem
    rw [hplan] at hmem
    rw [List.mem_singleton.mp hmem, hitem]
    exact ⟨_, source, entry, hsource, hentry, rfl, rfl⟩
  have hreplaced : plan.replaced = [entry.identity] := by
    simp [hplan, hitem, RebuildPlan.replaced, sortedSet, containerEntry]
  have hfound : plan.replacement? entry.identity = some item := by
    simp [hplan, hitem, RebuildPlan.replacement?, containerEntry]
  have hneeded : plan.needed card = 1 := by
    have hlength := (stored_of_parse hsource hentry).length_dataBlocks
    rw [hblocks] at hlength
    have hold : oldBlocks card entry.identity = [] := by simp [oldBlocks, existing, hlive]
    simp [RebuildPlan.needed, hreplaced, RebuildPlan.neededFor, hfound, hitem, extracted, hold,
      hlength]
  have hexpected : plan.expected.entries = [containerEntry entry] := by rw [hplan]
  have hresulting : plan.expected.entries = plan.resulting card := by
    simp [RebuildPlan.resulting, RebuildPlan.kept, hlive, hreplaced, RebuildPlan.written, hfound,
      sortedByIdentity, hexpected, hitem]
  have hfreeLength : card.freeBlocks.length = 15 := by rw [hfree]; rfl
  obtain ⟨raw', card', hrebuilt, hrebuild⟩ := rebuild_outcome hcard hextracted
  rw [if_neg (by simp [hreplaced, hexpected, containerEntry]), if_neg (by omega),
    if_pos hresulting] at hrebuild
  have hdone := hrebuilt (by omega)
  obtain ⟨stored, hstored, replacement, hsame, hholding⟩ :=
    hdone.stored entry.identity (by simp [hreplaced])
  rw [hfound] at hsame
  cases hsame
  refine ⟨plan, raw', card', hrebuild, hdone.accepted, stored, hstored, ?_⟩
  rw [hholding.filename, hitem]
  exact hname

end RomCloud.Containers.Ps1
