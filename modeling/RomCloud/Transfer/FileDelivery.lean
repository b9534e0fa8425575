import RomCloud.Transfer.FileTransfer

namespace RomCloud.Transfer

open RomCloud.Lib

/-!
# What the transfer of one file delivers

Whatever stands at the staged name, at the `.part` name and in the rows, a transfer that returns
has put the bytes of the source at the staged name.

* `Touched` — the asset but for one staged file, its `.part` file and its row;
* `sourceMatches_spec`, `adoptClean_spec`, `retainedLength_spec` — what is taken over from an
  earlier run is the beginning of the source;
* `copyChunks_spec`, `finishFile_spec` — what is added to it;
* `transferFile_spec` — the whole.

Every assertion for a run that is cut short is `Touched`.
-/

section Rules

variable {σ α : Type} {env : Env Site Failure} {X P : σ → Prop}

theorem within_change {site : Site} {error : TransferError} {f : σ → Option σ} {Q : Unit → σ → Prop}
    (hX : ∀ s, P s → X s) (h : ∀ s t, P s → f s = some t → Q () t) :
    Within env X P (change site error f) Q := by
  refine Within.step hX fun s a t hs hact => ?_
  cases hf : f s with
  | none =>
    rw [hf] at hact
    exact absurd hact (by simp)
  | some u =>
    rw [hf] at hact
    cases hact
    exact h s _ hs hf

theorem within_notify (hX : ∀ s, P s → X s) : Within env X P notify (fun _ => P) := by
  refine Within.step hX fun s a t hs hact => ?_
  cases hact
  exact hs

theorem within_checkCancelled (hX : ∀ s, P s → X s) :
    Within env X P checkCancelled (fun _ => P) := by
  refine Within.step hX fun s a t hs hact => ?_
  cases hact
  exact hs

/-- After a look the state is known. -/
theorem within_look {site : Site} {f : σ → TransferProg σ α} {Q : α → σ → Prop}
    (hX : ∀ s, P s → X s) (h : ∀ s, P s → Within env X (fun t => t = s) (f s) Q) :
    Within env X P (look site >>= f) Q := by
  refine Within.bind (Q := fun a s => a = s ∧ P s) ?_ fun a => Within.ofState fun s hs => ?_
  · refine Within.step hX fun s a t hs hact => ?_
    cases hact
    exact ⟨rfl, hs⟩
  · rw [hs.1]
    exact h s hs.2

end Rules

section Touched

variable {δ μ : Type} {member : String} {s₀ s t : AssetStore δ μ} {spot : Spot}
  {value : Option (Node Content)}

/-- What else stood in the staged copy still does, the final copy and the parked one are as they
    were, and so are the row of the asset and the sizes that are expected. -/
structure Touched (member : String) (s₀ s : AssetStore δ μ) : Prop where
  node : ∀ spot node, spot ≠ destination member → spot ≠ partOf member →
    s₀.node spot = some node → s.node spot = some node
  tree : ∀ place, place = .final ∨ place = .backup → s.tree place = s₀.tree place
  asset : s.asset = s₀.asset
  expected : ∀ name, (s.files.get? name).map FileRow.expectedSize
    = (s₀.files.get? name).map FileRow.expectedSize

theorem Touched.refl (member : String) (s : AssetStore δ μ) : Touched member s s :=
  ⟨fun _ _ _ _ h => h, fun _ _ => rfl, rfl, fun _ => rfl⟩

theorem Touched.trans {u : AssetStore δ μ} (h : Touched member s t)
    (h' : Touched member t u) : Touched member s u where
  node := fun spot node hd hp hnode => h'.node spot node hd hp (h.node spot node hd hp hnode)
  tree := fun place hplace => (h'.tree place hplace).trans (h.tree place hplace)
  asset := h'.asset.trans h.asset
  expected := fun name => (h'.expected name).trans (h.expected name)

/-- A write at one of the two names. -/
theorem Touched.sets (h : Touched member s₀ s) (hsets : Sets spot value s t)
    (hspot : spot = destination member ∨ spot = partOf member) : Touched member s₀ t := by
  refine h.trans ⟨?_, ?_, hsets.asset, fun name => by rw [hsets.files]⟩
  · intro x node hd hp hnode
    rw [hsets.node, if_neg]
    · exact hnode
    · rintro rfl
      exact hspot.elim hd hp
  · intro place hplace
    refine hsets.tree place ?_
    rcases hspot with rfl | rfl
    · rcases hplace with rfl | rfl <;> simp [destination]
    · rcases hplace with rfl | rfl <;> rcases place_partOf member with hp | hp <;> simp [hp]

/-- A directory that was missing is made in the staged copy. -/
theorem Touched.mkdir {name : String} (h : Touched member s₀ s)
    (hmkdir : s.mkdir (.staged, name) = some t) : Touched member s₀ t := by
  obtain ⟨hsets, hfree⟩ := sets_mkdir hmkdir
  refine h.trans ⟨?_, ?_, hsets.asset, fun name => by rw [hsets.files]⟩
  · intro x node _ _ hnode
    rw [hsets.node]
    split
    · next hx =>
      rw [hx] at hnode
      rcases hfree with hnone | hdirectory
      · rw [hnone] at hnode
        exact absurd hnode (by simp)
      · rw [← hnode, hdirectory]
    · exact hnode
  · intro place hplace
    refine hsets.tree place ?_
    rcases hplace with rfl | rfl <;> simp

/-- A write in the row of a file. -/
theorem Touched.update {name : String} {change : FileRow δ → FileRow δ}
    (h : Touched member s₀ s) (hchange : ∀ row, (change row).expectedSize = row.expectedSize) :
    Touched member s₀ (s.update name change) :=
  h.trans ⟨fun _ _ _ _ hfile => hfile, fun _ _ => rfl, rfl, expectedSize_update hchange⟩

theorem Touched.checkpoint {name : String} {size : ℕ} {digest : δ} {state : FileState}
    (h : Touched member s₀ s) (hcheckpoint : s.checkpoint name size digest state = some t) :
    Touched member s₀ t ∧ ∀ x, t.node x = s.node x := by
  unfold AssetStore.checkpoint at hcheckpoint
  split at hcheckpoint
  · exact absurd hcheckpoint (by simp)
  · cases hcheckpoint
    exact ⟨h.update fun _ => rfl, fun _ => rfl⟩

theorem Touched.complete {name : String} {size : ℕ} {digest : δ} (h : Touched member s₀ s) :
    Touched member s₀ (s.complete name size digest) := h.update fun _ => rfl

end Touched

section Delivery

variable {δ μ : Type} {sha256 : Content → δ} {source : Source} {env : Env Site Failure}
  {s₀ s : AssetStore δ μ} {file : PlannedFile}

/-- The `.part` file holds the first bytes of the source. -/
def Retains (source : Source) (file : PlannedFile) (s : AssetStore δ μ) (checkpoint : ℕ) : Prop :=
  checkpoint ≤ (source.content file.relativePath).length
    ∧ s.node (partOf file.packageRelativePath)
      = some (.file ((source.content file.relativePath).take checkpoint))

section Takeover

variable [DecidableEq δ]

/-- A match says that what was kept is the beginning of the file of the source. -/
theorem sourceMatches_spec (hsha : Function.Injective sha256) {X : AssetStore δ μ → Prop}
    (hX : X s) (relativePath : String) (retained : Content) (length : ℕ) :
    Within env X (fun t => t = s) (sourceMatches sha256 source relativePath retained length)
      (fun same t => t = s ∧ (same = true → length ≤ (source.content relativePath).length
        ∧ retained.take length = (source.content relativePath).take length)) := by
  unfold sourceMatches
  split
  · next hzero =>
    refine Within.pure _ fun t ht => ⟨ht, fun _ => ?_⟩
    simp [hzero]
  split
  · exact Within.pure _ fun t ht => ⟨ht, fun h => absurd h (by simp)⟩
  -- a read error leaves the state as it is, and is no match
  refine Triple.tryCatchWith (fun _ t => t = s) ?_ fun error => ?_
  · refine Triple.bind (Q := fun _ t => t = s) ?_ fun _ => Triple.pure _ fun t ht => ⟨ht, ?_⟩
    · refine Triple.step ?_ (fun t _ ht _ => ht) fun t ht => ht
      exact fun t ht _ => ht ▸ hX
    · intro hsame
      obtain ⟨hlength, heq⟩ := of_decide_eq_true hsame
      exact ⟨hlength, (hsha heq).symm⟩
  · split
    · exact Triple.pure _ fun t ht => ⟨ht, fun h => absurd h (by simp)⟩
    · exact Triple.throw _ fun t ht => ht ▸ hX

/-- A clean staged file that is adopted is the file of the source. -/
theorem adoptClean_spec (hsha : Function.Injective sha256)
    (hsize : file.sizeBytes = some (source.content file.relativePath).length)
    (h : Touched file.packageRelativePath s₀ s) :
    Within env (Touched file.packageRelativePath s₀) (fun t => t = s)
      (adoptClean sha256 source file)
      (fun adopted t => Touched file.packageRelativePath s₀ t ∧ (adopted = true →
        t.node (destination file.packageRelativePath)
          = some (.file (source.content file.relativePath)))) := by
  have hX : ∀ t, t = s → Touched file.packageRelativePath s₀ t := fun t ht => ht ▸ h
  refine within_look hX fun u hu => ?_
  rw [hu]
  split
  case h_2 => exact Within.pure _ fun t ht => ⟨hX t ht, fun h => absurd h (by simp)⟩
  next clean hnode =>
  refine Within.bind (Q := fun same t => t = s ∧ (same = true →
    clean = source.content file.relativePath)) ?_ fun same => ?_
  · split
    · next hclean =>
      refine (sourceMatches_spec hsha h _ _ _).weaken (fun _ h => h) ?_ (fun _ h => h)
      rintro same t ⟨ht, hsame⟩
      refine ⟨ht, fun hs => ?_⟩
      -- a prefix of the source that is as long as the source is all of it
      have hlength : (source.content file.relativePath).length = clean.length := by
        rw [hsize] at hclean
        simpa using hclean
      have htake := (hsame hs).2
      rwa [List.take_length, ← hlength, List.take_length] at htake
    · exact Within.pure _ fun t ht => ⟨ht, fun h => absurd h (by simp)⟩
  refine Within.ofState fun t ht => ?_
  obtain ⟨rfl, hsame⟩ := ht
  split
  · next hs =>
    refine Within.bind (Q := fun _ t => Touched file.packageRelativePath s₀ t
      ∧ t.node (destination file.packageRelativePath)
        = some (.file (source.content file.relativePath))) ?_ fun _ => ?_
    · refine within_change hX fun t u ht hu => ?_
      cases hu
      rw [ht]
      refine ⟨h.complete, ?_⟩
      rw [← hsame hs]
      exact hnode
    · refine Within.bind (within_notify fun t ht => ht.1) fun _ => ?_
      exact Within.pure _ fun t ht => ⟨ht.1, fun _ => ht.2⟩
  · refine Within.bind (within_notify hX) fun _ => ?_
    refine Within.bind (Q := fun _ t => Touched file.packageRelativePath s₀ t) ?_ fun _ => ?_
    · refine within_change hX fun t u ht hu => ?_
      rw [ht] at hu
      exact h.sets (sets_unlink hu) (Or.inl rfl)
    · exact Within.pure _ fun t ht => ⟨ht, fun h => absurd h (by simp)⟩

/-- A checkpoint that stands the test is one of the source. -/
theorem verifyCheckpoint_spec (hsha : Function.Injective sha256) {record : FileRow δ}
    {checkpoint : ℕ} (h : Touched file.packageRelativePath s₀ s)
    (hcut : ∀ bytes, s.node (partOf file.packageRelativePath) = some (.file bytes) →
      checkpoint = 0 ∨ bytes.length = checkpoint) :
    Within env (Touched file.packageRelativePath s₀) (fun t => t = s)
      (verifyCheckpoint sha256 source file record checkpoint)
      (fun kept t => Touched file.packageRelativePath s₀ t
        ∧ (kept ≠ 0 → Retains source file t kept)) := by
  have hX : ∀ t, t = s → Touched file.packageRelativePath s₀ t := fun t ht => ht ▸ h
  refine within_look hX fun u hu => ?_
  rw [hu]
  split
  case h_2 => exact Within.throw _ hX
  next retained hnode =>
  split
  · exact Within.pure _ fun t ht => ⟨hX t ht, fun h => absurd rfl h⟩
  next hcheck =>
  rw [not_or] at hcheck
  refine Within.bind (sourceMatches_spec hsha h _ _ _) fun same => Within.pure _ ?_
  rintro t ⟨rfl, hsame⟩
  refine ⟨h, fun hkept => ?_⟩
  have hs : same = true := by
    by_contra hs
    exact hkept (if_neg hs)
  rw [if_pos hs]
  obtain ⟨hlength, htake⟩ := hsame hs
  refine ⟨hlength, ?_⟩
  rw [hnode, ← htake]
  -- nothing is kept beyond the checkpoint
  have hall : retained.take checkpoint = retained :=
    List.take_of_length_le ((hcut retained hnode).resolve_left hcheck.1).le
  rw [hall]

/-- What is kept of the `.part` file. -/
theorem retainedLength_spec (hsha : Function.Injective sha256) {record : Option (FileRow δ)}
    (h : Touched file.packageRelativePath s₀ s) :
    Within env (Touched file.packageRelativePath s₀) (fun t => t = s)
      (retainedLength sha256 source file record)
      (fun kept t => Touched file.packageRelativePath s₀ t
        ∧ (kept ≠ 0 → Retains source file t kept)) := by
  have hX : ∀ t, t = s → Touched file.packageRelativePath s₀ t := fun t ht => ht ▸ h
  refine within_look hX fun u hu => ?_
  rw [hu]
  split
  case h_2 => exact Within.pure _ fun t ht => ⟨hX t ht, fun h => absurd rfl h⟩
  next actual record hnode =>
  have hactual : ∀ bytes, s.node (partOf file.packageRelativePath) = some (.file bytes) →
      bytes = actual := by
    intro bytes hbytes
    rw [hnode] at hbytes
    cases hbytes
    rfl
  split
  · exact verifyCheckpoint_spec hsha h fun _ _ => Or.inl rfl
  next hshort =>
  rw [not_or] at hshort
  split
  · refine Within.bind (within_notify hX) fun _ => ?_
    refine Within.bind (Q := fun _ t => Touched file.packageRelativePath s₀ t
      ∧ t.node (partOf file.packageRelativePath)
        = some (.file (actual.take record.checkpointBytes))) ?_ fun _ =>
        Within.ofState fun t ht => verifyCheckpoint_spec hsha ht.1 ?_
    · refine within_change hX fun t u ht hu => ?_
      rw [ht] at hu
      have hsets := sets_truncate hnode hu
      refine ⟨h.sets hsets (Or.inr rfl), ?_⟩
      rw [hsets.node, if_pos rfl]
    · intro bytes hbytes
      rw [ht.2] at hbytes
      cases hbytes
      rw [List.length_take]
      omega
  · refine verifyCheckpoint_spec hsha h fun bytes hbytes => ?_
    rw [hactual bytes hbytes]
    omega

end Takeover

/-- Directories of the staged copy. -/
theorem makeDirectories_spec (names : List String) (member : String) :
    Within env (Touched member s₀) (Touched member s₀) (makeDirectories names)
      (fun _ => Touched member s₀) := by
  refine Triple.forEach_keep fun name _ => within_change (fun _ h => h) ?_
  exact fun t u ht hu => ht.mkdir hu

/-- An empty `.part` file keeps nothing of the source. -/
theorem beginPart_spec (h : Touched file.packageRelativePath s₀ s) :
    Within env (Touched file.packageRelativePath s₀) (fun t => t = s) (beginPart sha256 file)
      (fun _ t => Touched file.packageRelativePath s₀ t ∧ Retains source file t 0) := by
  have hX : ∀ t, t = s → Touched file.packageRelativePath s₀ t := fun t ht => ht ▸ h
  refine within_look hX fun u hu => ?_
  refine Within.bind (Q := fun _ => Touched file.packageRelativePath s₀) ?_ fun _ => ?_
  · split
    · exact (within_notify hX).weaken (fun t ht => ht.trans hu) (fun _ t => hX t) fun _ h => h
    · exact Within.pure _ fun t ht => hX t (ht.trans hu)
  refine Within.bind (makeDirectories_spec _ _) fun _ => ?_
  refine Within.bind (Q := fun _ t => Touched file.packageRelativePath s₀ t
    ∧ t.node (partOf file.packageRelativePath) = some (.file [])) ?_ fun _ => ?_
  · refine within_change (fun _ h => h) fun t u ht hu => ?_
    have hsets := sets_write hu
    refine ⟨ht.sets hsets (Or.inr rfl), ?_⟩
    rw [hsets.node, if_pos rfl]
  · refine within_change (fun t ht => ht.1) fun t u ht hu => ?_
    obtain ⟨htouched, hnode⟩ := ht.1.checkpoint hu
    refine ⟨htouched, Nat.zero_le _, ?_⟩
    rw [hnode, ht.2, List.take_zero]

/-! ### The copy -/

/-- The `.part` file holds what the running digest was given. -/
def Digested (file : PlannedFile) (s₀ : AssetStore δ μ) (p : Copying δ μ) : Prop :=
  Touched file.packageRelativePath s₀ p.1
    ∧ p.1.node (partOf file.packageRelativePath) = some (.file p.2)

/-- Every chunk that is read is added to the `.part` file and to the digest. -/
theorem copyChunks_spec (chunks : List Content) (next : ℕ) (copied : Content) :
    Within env (fun p => Touched file.packageRelativePath s₀ p.1)
      (fun p => Digested file s₀ p ∧ p.2 = copied) (copyChunks sha256 file chunks next)
      (fun _ p => Digested file s₀ p ∧ p.2 = copied ++ chunks.flatten) := by
  induction chunks generalizing next copied with
  | nil =>
    rw [copyChunks, List.flatten_nil, List.append_nil]
    refine Within.bind (within_checkCancelled fun p hp => hp.1.1) fun _ => ?_
    refine within_look (fun p hp => hp.1.1) fun p hp => Within.pure _ fun q hq => ?_
    rw [hq]
    exact hp
  | cons chunk rest ih =>
    rw [copyChunks]
    have hX : ∀ copied (p : Copying δ μ), Digested file s₀ p ∧ p.2 = copied →
        Touched file.packageRelativePath s₀ p.1 := fun _ p hp => hp.1.1
    refine Within.bind (within_checkCancelled (hX copied)) fun _ => ?_
    refine within_look (hX copied) fun p hp => ?_
    -- between the write and the digest the file is one chunk ahead
    refine Within.bind (Q := fun _ q => Touched file.packageRelativePath s₀ q.1
      ∧ q.1.node (partOf file.packageRelativePath) = some (.file (copied ++ chunk))
      ∧ q.2 = copied) ?_ fun _ => ?_
    · refine within_change (fun q hq => hX copied q (hq ▸ hp)) fun q u hq hu => ?_
      rw [hq] at hu
      obtain ⟨t, ht, rfl⟩ := Option.map_eq_some_iff.mp hu
      have hsets := sets_append hp.1.2 ht
      refine ⟨hp.1.1.sets hsets (Or.inr rfl), ?_, hp.2⟩
      rw [hsets.node, if_pos rfl, hp.2]
    refine Within.bind (within_notify fun q hq => hq.1) fun _ => ?_
    refine Within.bind (Q := fun _ q => Digested file s₀ q ∧ q.2 = copied ++ chunk)
      (Triple.silent ?_) fun bytesDone => ?_
    · rintro q ⟨htouched, hnode, hdigest⟩
      show (Touched _ s₀ q.1 ∧ q.1.node _ = some (.file (q.2 ++ chunk))) ∧ q.2 ++ chunk = _
      rw [hdigest]
      exact ⟨⟨htouched, hnode⟩, rfl⟩
    refine Within.bind (Q := fun _ q => Digested file s₀ q ∧ q.2 = copied ++ chunk) ?_
      fun next => ?_
    · split
      · refine within_look (hX _) fun q hq => ?_
        refine Within.bind (Q := fun _ q => Digested file s₀ q ∧ q.2 = copied ++ chunk) ?_
          fun _ => Within.pure _ fun _ h => h
        refine within_change (fun r hr => hX _ r (hr ▸ hq)) fun r u hr hu => ?_
        rw [hr] at hu
        obtain ⟨t, ht, rfl⟩ := Option.map_eq_some_iff.mp hu
        obtain ⟨htouched, hnode⟩ := hq.1.1.checkpoint ht
        exact ⟨⟨htouched, (hnode _).trans hq.1.2⟩, hq.2⟩
      · exact Within.pure _ fun _ h => h
    refine Within.bind (within_notify (hX _)) fun _ => ?_
    refine Within.bind (within_checkCancelled (hX _)) fun _ => ?_
    refine (ih next (copied ++ chunk)).weaken (fun _ h => h) (fun _ p hp => ?_) fun _ h => h
    rw [List.flatten_cons, ← List.append_assoc]
    exact hp

/-- A copy that is stopped is not completed by its checkpoint. -/
theorem keepPartial_spec (error : Exn Failure TransferError) {Q : Unit → Copying δ μ → Prop} :
    Within env (fun p => Touched file.packageRelativePath s₀ p.1)
      (fun p => Touched file.packageRelativePath s₀ p.1) (keepPartial sha256 file error) Q := by
  unfold keepPartial
  split
  case isFalse => exact Within.throw _ fun _ h => h
  refine within_look (fun _ h => h) fun p hp => ?_
  have hX : ∀ q, q = p → Touched file.packageRelativePath s₀ q.1 := fun q hq => hq ▸ hp
  split
  · exact Within.throw _ hX
  · refine Within.bind (Q := fun _ q => Touched file.packageRelativePath s₀ q.1) ?_
      fun _ => Within.throw _ fun _ h => h
    refine within_change hX fun q u hq hu => ?_
    rw [hq] at hu
    obtain ⟨t, ht, rfl⟩ := Option.map_eq_some_iff.mp hu
    exact (hp.checkpoint ht).1
  · exact Within.throw _ hX

/-- What is left of the file is copied after what was kept of it. -/
theorem copyFile_spec {checkpoint : ℕ} (h : Touched file.packageRelativePath s₀ s)
    (hretains : Retains source file s checkpoint) :
    Within env (Touched file.packageRelativePath s₀) (fun t => t = s)
      (copyFile sha256 source file checkpoint)
      (fun bytes t => Touched file.packageRelativePath s₀ t
        ∧ t.node (partOf file.packageRelativePath) = some (.file bytes)
        ∧ bytes = source.content file.relativePath) := by
  have hX : ∀ t, t = s → Touched file.packageRelativePath s₀ t := fun t ht => ht ▸ h
  refine within_look hX fun u hu => ?_
  rw [hu, hretains.2]
  have hseed : (if checkpoint = 0 then [] else (source.content file.relativePath).take checkpoint)
      = (source.content file.relativePath).take checkpoint := by
    split
    · next hzero => rw [hzero, List.take_zero]
    · rfl
  dsimp only
  rw [hseed]
  refine Triple.zoom fun t ht => ?_
  rw [ht]
  refine Triple.weaken (Q := fun bytes p => Digested file s₀ p ∧ p.2 = bytes
    ∧ bytes = source.content file.relativePath)
    (E := fun _ p => Touched file.packageRelativePath s₀ p.1)
    (C := fun p => Touched file.packageRelativePath s₀ p.1) ?_ (fun _ h => h) ?_
    (fun _ _ h => h) fun _ h => h
  · refine Within.bind (Q := fun _ p => Digested file s₀ p
      ∧ p.2 = source.content file.relativePath) (Within.tryCatch ?_ fun error =>
        keepPartial_spec error) fun _ => ?_
    · have hstart : ∀ p : Copying δ μ,
          p = (s, (source.content file.relativePath).take checkpoint) →
          Digested file s₀ p
            ∧ p.2 = (source.content file.relativePath).take checkpoint := by
        rintro p rfl
        exact ⟨⟨h, hretains.2⟩, rfl⟩
      refine within_look (fun p hp => (hstart p hp).1.1) fun p hp => ?_
      refine Within.bind ((copyChunks_spec _ _ _).weaken
        (fun q hq => hstart q (hq.trans hp)) (fun _ _ h => h) fun _ h => h) fun _ => ?_
      refine within_look (fun q hq => hq.1.1) fun q hq => Within.pure _ fun r hr => ?_
      rw [hr]
      refine ⟨hq.1, ?_⟩
      rw [hq.2, source.flatten_reads, List.take_append_drop]
    · exact Triple.silent fun p hp => ⟨hp.1, rfl, hp.2⟩
  · rintro bytes p ⟨hp, rfl, hbytes⟩
    exact ⟨hp.1, hp.2, hbytes⟩

/-- A finished file stands at its staged name. -/
theorem finishFile_spec {bytes : Content} (h : Touched file.packageRelativePath s₀ s)
    (hnode : s.node (partOf file.packageRelativePath) = some (.file bytes)) :
    Within env (Touched file.packageRelativePath s₀) (fun t => t = s)
      (finishFile sha256 file bytes)
      (fun _ t => Touched file.packageRelativePath s₀ t
        ∧ t.node (destination file.packageRelativePath) = some (.file bytes)) := by
  have hX : ∀ t, t = s → Touched file.packageRelativePath s₀ t := fun t ht => ht ▸ h
  unfold finishFile
  split
  · refine Within.bind (Q := fun _ t => Touched file.packageRelativePath s₀ t) ?_
      fun _ => Within.throw _ fun _ h => h
    refine within_change hX fun t u ht hu => ?_
    rw [ht] at hu
    exact (h.checkpoint hu).1
  · refine Within.bind (Q := fun _ t => Touched file.packageRelativePath s₀ t
      ∧ t.node (destination file.packageRelativePath) = some (.file bytes)) ?_ fun _ => ?_
    · refine within_change hX fun t u ht hu => ?_
      rw [ht] at hu
      obtain ⟨mid, hwrite, hremove⟩ := sets_replaceFile hnode hu
      refine ⟨(h.sets hwrite (Or.inl rfl)).sets hremove (Or.inr rfl), ?_⟩
      rw [hremove.node, if_neg (partOf_ne_destination _).symm, hwrite.node, if_pos rfl]
    · refine within_change (fun t ht => ht.1) fun t u ht hu => ?_
      cases hu
      exact ⟨ht.1.complete, ht.2⟩

/-- `transfer_to` writes the whole file. -/
theorem transferTo_spec (chunks : List Content) :
    Within env (Touched file.packageRelativePath s₀) (Touched file.packageRelativePath s₀)
      (transferTo file chunks)
      (fun _ t => Touched file.packageRelativePath s₀ t
        ∧ t.node (partOf file.packageRelativePath) = some (.file chunks.flatten)) := by
  refine Within.bind (Q := fun _ t => Touched file.packageRelativePath s₀ t
    ∧ t.node (partOf file.packageRelativePath) = some (.file [].flatten)) ?_ fun _ => ?_
  · refine within_change (fun _ h => h) fun t u ht hu => ?_
    have hsets := sets_write hu
    refine ⟨ht.sets hsets (Or.inr rfl), ?_⟩
    rw [hsets.node, if_pos rfl, List.flatten_nil]
  · refine Triple.forEach (fun done t => Touched file.packageRelativePath s₀ t
      ∧ t.node (partOf file.packageRelativePath) = some (.file done.flatten)) ?_
    intro done chunk rest _
    refine within_look (fun t ht => ht.1) fun t ht => ?_
    refine Within.bind (Q := fun _ t => Touched file.packageRelativePath s₀ t
      ∧ t.node (partOf file.packageRelativePath)
        = some (.file (done ++ [chunk]).flatten)) ?_ fun _ => ?_
    · refine within_change (fun u hu => hu ▸ ht.1) fun u v hu hv => ?_
      rw [hu] at hv
      have hsets := sets_append ht.2 hv
      refine ⟨ht.1.sets hsets (Or.inr rfl), ?_⟩
      rw [hsets.node, if_pos rfl, List.flatten_append, List.flatten_singleton]
    · refine Within.bind (within_notify fun _ h => h.1) fun _ => ?_
      refine Within.bind (within_checkCancelled fun _ h => h.1) fun _ => ?_
      refine Within.bind (within_notify fun _ h => h.1) fun _ => ?_
      exact within_checkCancelled fun _ h => h.1

/-- A transfer without resumption copies the whole file. -/
theorem transferWithoutResume_spec (h : Touched file.packageRelativePath s₀ s) :
    Within env (Touched file.packageRelativePath s₀) (fun t => t = s)
      (transferWithoutResume sha256 source file)
      (fun _ t => Touched file.packageRelativePath s₀ t
        ∧ t.node (destination file.packageRelativePath)
          = some (.file (source.content file.relativePath))) := by
  have hX : ∀ t, t = s → Touched file.packageRelativePath s₀ t := fun t ht => ht ▸ h
  refine within_look hX fun u hu => ?_
  refine Within.bind (Q := fun _ => Touched file.packageRelativePath s₀) ?_ fun _ => ?_
  · split
    · refine Within.bind (within_notify fun t ht => hX t (ht.trans hu)) fun _ => ?_
      refine within_change (fun t ht => hX t (ht.trans hu)) fun t v ht hv => ?_
      exact (hX t (ht.trans hu)).sets (sets_unlink hv) (Or.inr rfl)
    · exact Within.pure _ fun t ht => hX t (ht.trans hu)
  refine Within.bind (Q := fun _ t => Touched file.packageRelativePath s₀ t
    ∧ t.node (partOf file.packageRelativePath)
      = some (.file (source.content file.relativePath))) ?_ fun _ => ?_
  · refine Within.tryCatch ((transferTo_spec _).weaken (fun _ h => h) (fun _ t ht => ?_)
      fun _ h => h) fun error => ?_
    · rw [source.flatten_reads] at ht
      exact ht
    -- a cancelled transfer is not completed by its checkpoint
    · split
      case isFalse => exact Within.throw _ fun _ h => h
      refine within_look (fun _ h => h) fun t ht => ?_
      have hT : ∀ v, v = t → Touched file.packageRelativePath s₀ v := fun v hv => hv ▸ ht
      split
      · exact Within.throw _ hT
      · refine Within.bind (Q := fun _ => Touched file.packageRelativePath s₀) ?_
          fun _ => Within.throw _ fun _ h => h
        refine within_change hT fun v w hv hw => ?_
        rw [hv] at hw
        exact (ht.checkpoint hw).1
      · exact Within.throw _ hT
  · refine within_look (fun t ht => ht.1) fun t ht => ?_
    rw [ht.2]
    exact finishFile_spec ht.1 ht.2

/-- **One file.** A transfer that returns has staged the bytes of the source. -/
theorem transferFile_spec [DecidableEq δ] (hsha : Function.Injective sha256)
    (hsize : file.sizeBytes = some (source.content file.relativePath).length)
    (s₀ : AssetStore δ μ) :
    Within env (Touched file.packageRelativePath s₀) (fun t => t = s₀)
      (transferFile sha256 source file)
      (fun _ t => Touched file.packageRelativePath s₀ t
        ∧ t.node (destination file.packageRelativePath)
          = some (.file (source.content file.relativePath))) := by
  have hX : ∀ t, t = s₀ → Touched file.packageRelativePath s₀ t :=
    fun t ht => by rw [ht]; exact Touched.refl _ s₀
  refine within_look hX fun s hs => ?_
  refine Within.bind (adoptClean_spec hsha hsize (hX s hs)) fun adopted => ?_
  split
  · next hadopted => exact Within.pure _ fun t ht => ⟨ht.1, ht.2 hadopted⟩
  refine Within.bind (Q := fun kept t => Touched file.packageRelativePath s₀ t
    ∧ (kept ≠ 0 → Retains source file t kept))
    (Within.ofState fun t ht => retainedLength_spec hsha ht.1) fun checkpoint => ?_
  -- a checkpoint of nothing is begun anew
  refine Within.bind (Q := fun _ t => Touched file.packageRelativePath s₀ t
    ∧ Retains source file t checkpoint) ?_ fun _ => Within.ofState fun t ht => ?_
  · split
    · next hzero =>
      rw [hzero]
      exact Within.ofState fun t ht => beginPart_spec ht.1
    · next hkept => exact Within.pure _ fun t ht => ⟨ht.1, ht.2 hkept⟩
  split
  · exact transferWithoutResume_spec ht.1
  refine Within.bind (copyFile_spec ht.1 ht.2) fun bytes => Within.ofState fun t ht => ?_
  refine Within.bind (finishFile_spec ht.1 ht.2.1) fun _ => ?_
  rw [ht.2.2]
  exact within_checkCancelled fun u hu => hu.1

end Delivery

end RomCloud.Transfer
