import RomCloud.Containers.FolderCard

namespace RomCloud.Containers

open Lib
open SaveSync (ContainerEntry ContainerSnapshot sortedByIdentity)

/-!
# What the snapshot of a folder card depends on

* `Legible`, `Sound` — the cards whose trees are read, and whose saves are hashed, without a
  refusal;
* `records`, `saves`, `entryOf` — the records of a tree, the saves of a card and their entries,
  where nothing is refused;
* `snapshot_eq_ok_iff` — when a snapshot is taken, and what it is.
-/

/-! ### Nodes -/

/-- A file or a directory. -/
def CardNode.Plain (node : CardNode) : Prop := node ≠ .symlink ∧ node ≠ .special

namespace FolderCard

variable {card other : FolderCard} {top name : Bytes} {node : CardNode}
  {directory path relative : CardPath}

theorem checkChild_eq_ok_iff {child : Bytes × CardNode} :
    checkChild child = .ok () ↔ child.2.Plain := by
  obtain ⟨name, node⟩ := child
  cases node <;> simp [checkChild, CardNode.Plain]

theorem mem_children : (name, node) ∈ card.children directory
    ↔ card.nodes.get? (directory ++ [name]) = some node := by
  rw [children, List.mem_map]
  constructor
  · rintro ⟨⟨p, n⟩, hentry, heq⟩
    rw [← Dict.get?_eq_some_iff, Dict.get?_restrict] at hentry
    split at hentry
    · next hp =>
      obtain ⟨hne, hparent⟩ := of_decide_eq_true hp
      obtain ⟨rfl, rfl⟩ := Prod.mk.inj heq
      obtain ⟨front, last, rfl⟩ := (List.eq_nil_or_concat p).resolve_left hne
      simp only [List.concat_eq_append, List.dropLast_concat] at hparent hentry ⊢
      rw [← hparent]
      simpa using hentry
    · exact absurd hentry (by simp)
  · intro h
    refine ⟨(directory ++ [name], node), ?_, by simp⟩
    rw [← Dict.get?_eq_some_iff, Dict.get?_restrict, if_pos (by simp)]
    exact h

theorem mem_directoriesBelow : relative ∈ card.directoriesBelow top
    ↔ card.nodes.get? (top :: relative) = some .directory := by
  rw [directoriesBelow, List.mem_map]
  constructor
  · rintro ⟨⟨p, n⟩, hmem, rfl⟩
    obtain ⟨hentry, hdirectory⟩ := List.mem_filter.mp hmem
    rw [← Dict.get?_eq_some_iff, Dict.get?_restrict] at hentry
    split at hentry
    · next hp =>
      cases p with
      | nil => exact absurd (of_decide_eq_true hp) (by simp)
      | cons first rest =>
        obtain rfl : first = top := by simpa using of_decide_eq_true hp
        obtain rfl : n = .directory := of_decide_eq_true hdirectory
        exact hentry
    · exact absurd hentry (by simp)
  · intro h
    refine ⟨(top :: relative, .directory), List.mem_filter.mpr ⟨?_, by simp⟩, rfl⟩
    rw [← Dict.get?_eq_some_iff, Dict.get?_restrict, if_pos (by simp)]
    exact h

/-- Whatever is above a node is a directory. -/
theorem directory_of_append {more : CardPath} (hmore : more ≠ [])
    (h : card.nodes.get? (path ++ more) ≠ none) : card.nodes.get? path = some .directory := by
  induction more using List.reverseRecOn with
  | nil => exact absurd rfl hmore
  | append_singleton front last ih =>
    rw [← List.append_assoc] at h
    have hfront := card.parents _ _ h
    cases front with
    | nil => simpa using hfront
    | cons first rest => exact ih (by simp) (by rw [hfront]; exact Option.some_ne_none _)

/-- Below a top directory two cards have the same trees if they have the same nodes there. -/
theorem children_congr
    (h : ∀ more, card.nodes.get? (top :: more) = other.nodes.get? (top :: more)) :
    card.children (top :: relative) = other.children (top :: relative) := by
  have hnodes : (card.nodes.restrict fun p => p ≠ [] ∧ p.dropLast = top :: relative)
      = other.nodes.restrict fun p => p ≠ [] ∧ p.dropLast = top :: relative := by
    refine Dict.ext_get? fun p => ?_
    rw [Dict.get?_restrict, Dict.get?_restrict]
    split
    · next hp =>
      obtain ⟨-, hparent⟩ := of_decide_eq_true hp
      cases p with
      | nil => exact absurd hparent (by simp)
      | cons first rest =>
        cases rest with
        | nil => exact absurd hparent (by simp)
        | cons second more =>
          obtain rfl : first = top := by
            rw [List.dropLast_cons_cons] at hparent
            exact (List.cons.inj hparent).1
          exact h _
    · rfl
  rw [children, children, hnodes]

theorem directoriesBelow_congr
    (h : ∀ more, card.nodes.get? (top :: more) = other.nodes.get? (top :: more)) :
    card.directoriesBelow top = other.directoriesBelow top := by
  have hnodes : (card.nodes.restrict fun p => p.head? = some top)
      = other.nodes.restrict fun p => p.head? = some top := by
    refine Dict.ext_get? fun p => ?_
    rw [Dict.get?_restrict, Dict.get?_restrict]
    split
    · next hp =>
      cases p with
      | nil => exact absurd (of_decide_eq_true hp) (by simp)
      | cons first rest =>
        obtain rfl : first = top := by simpa using of_decide_eq_true hp
        exact h rest
    · rfl
  rw [directoriesBelow, directoriesBelow, hnodes]

/-! ### Trees without a refusal -/

/-- The top directories. -/
def tops (card : FolderCard) : List Bytes :=
  ((card.children []).filter fun child => child.1 ≠ marker ∧ child.2 = .directory).map Prod.fst

/-- The records of a directory and its files. -/
def ownRecords (card : FolderCard) (top : Bytes) (relative : CardPath) : List Record :=
  (if relative = [] then [] else [.directory (joined relative)])
    ++ (card.children (top :: relative)).filterMap (fileRecord relative)

def records (card : FolderCard) (top : Bytes) : List Record :=
  ((card.directoriesBelow top).map (card.ownRecords top)).flatten.insertionSort Record.le

/-- The top directories below which there is a file. -/
def saves (card : FolderCard) : List Bytes :=
  card.tops.filter fun top => (card.records top).any Record.isFile

theorem mem_tops : top ∈ card.tops ↔ top ≠ marker ∧ card.nodes.get? [top] = some .directory := by
  rw [tops, List.mem_map]
  constructor
  · rintro ⟨⟨found, node⟩, hchild, rfl⟩
    obtain ⟨hchild, hcondition⟩ := List.mem_filter.mp hchild
    obtain ⟨hmarker, hdirectory⟩ := of_decide_eq_true hcondition
    exact ⟨hmarker, (mem_children.mp hchild).trans (congrArg some hdirectory)⟩
  · rintro ⟨hmarker, hdirectory⟩
    exact ⟨(top, .directory), List.mem_filter.mpr ⟨mem_children.mpr hdirectory, by simp [hmarker]⟩,
      rfl⟩

theorem records_congr (h : ∀ more, card.nodes.get? (top :: more) = other.nodes.get? (top :: more)) :
    card.records top = other.records top := by
  have hown : card.ownRecords top = other.ownRecords top := by
    funext relative
    rw [ownRecords, ownRecords, children_congr h]
  rw [records, records, directoriesBelow_congr h, hown]

/-- The records of a tree: its directories but the first, and its files. -/
theorem mem_records {record : Record} : record ∈ card.records top
    ↔ ∃ relative ≠ [],
      (card.nodes.get? (top :: relative) = some .directory ∧ record = .directory (joined relative))
      ∨ ∃ content, card.nodes.get? (top :: relative) = some (.file content)
          ∧ record = .file (joined relative) content := by
  rw [records, List.mem_insertionSort, List.mem_flatten]
  constructor
  · rintro ⟨_, hlist, hrecord⟩
    obtain ⟨relative, hdirectory, rfl⟩ := List.mem_map.mp hlist
    rcases List.mem_append.mp hrecord with hself | hfile
    · by_cases hempty : relative = []
      · exact absurd hself (by simp [hempty])
      · rw [if_neg hempty] at hself
        exact ⟨relative, hempty, Or.inl ⟨mem_directoriesBelow.mp hdirectory,
          List.mem_singleton.mp hself⟩⟩
    · obtain ⟨⟨name, node⟩, hchild, hrecord⟩ := List.mem_filterMap.mp hfile
      cases node with
      | file content =>
        refine ⟨relative ++ [name], by simp, Or.inr ⟨content, ?_, ?_⟩⟩
        · exact mem_children.mp hchild
        · exact (Option.some.inj hrecord).symm
      | directory => exact absurd hrecord (by simp [fileRecord])
      | symlink => exact absurd hrecord (by simp [fileRecord])
      | special => exact absurd hrecord (by simp [fileRecord])
  · rintro ⟨relative, hne, ⟨hdirectory, rfl⟩ | ⟨content, hfile, rfl⟩⟩
    · refine ⟨card.ownRecords top relative,
        List.mem_map.mpr ⟨relative, mem_directoriesBelow.mpr hdirectory, rfl⟩, ?_⟩
      rw [ownRecords, if_neg hne]
      exact List.mem_append_left _ (List.mem_singleton.mpr rfl)
    · obtain ⟨front, name, rfl⟩ := (List.eq_nil_or_concat relative).resolve_left hne
      rw [List.concat_eq_append] at hfile ⊢
      have hparent := card.parents (top :: front) name (by
        rw [List.cons_append, hfile]
        exact Option.some_ne_none _)
      refine ⟨card.ownRecords top front,
        List.mem_map.mpr ⟨front, mem_directoriesBelow.mpr hparent, rfl⟩, ?_⟩
      refine List.mem_append_right _ (List.mem_filterMap.mpr ⟨(name, .file content), ?_, rfl⟩)
      exact mem_children.mpr hfile

/-! ### Refusals -/

/-- The directory of a card, with its marker. -/
structure Marked (card : FolderCard) : Prop where
  root : card.nodes.get? [] = some .directory
  marker : card.isFile [marker] = true
  plain : ∀ name node, card.nodes.get? [name] = some node → node.Plain

/-- There is nothing below a top directory that its records would not cover. -/
def Readable (card : FolderCard) (top : Bytes) : Prop :=
  ∀ relative name node, card.nodes.get? (top :: relative ++ [name]) = some node →
    node.Plain ∧ safeName name = true

theorem checkAll_children_iff : checkAll checkChild (card.children directory) = .ok ()
    ↔ ∀ name node, card.nodes.get? (directory ++ [name]) = some node → node.Plain := by
  rw [checkAll_eq_ok_iff]
  constructor
  · intro h name node hnode
    exact checkChild_eq_ok_iff.mp (h (name, node) (mem_children.mpr hnode))
  · rintro h ⟨name, node⟩ hchild
    exact checkChild_eq_ok_iff.mpr (h name node (mem_children.mp hchild))

theorem safeChildren_eq_ok_iff {children : List (Bytes × CardNode)} :
    card.safeChildren directory = .ok children
      ↔ (∀ name node, card.nodes.get? (directory ++ [name]) = some node → node.Plain)
        ∧ children = card.children directory := by
  rw [safeChildren, check_bind_eq_ok_iff, checkAll_children_iff]
  exact and_congr_right fun _ => ⟨fun h => (Except.ok.inj h).symm, fun h => h ▸ rfl⟩

theorem topDirectories_eq_ok_iff {found : List Bytes} :
    card.topDirectories = .ok found ↔ card.Marked ∧ found = card.tops := by
  rw [topDirectories, check_bind_eq_ok_iff, check_bind_eq_ok_iff, require_eq_ok_iff,
    require_eq_ok_iff, bind_eq_ok_iff]
  constructor
  · rintro ⟨hroot, hmarker, children, hchildren, hfound⟩
    obtain ⟨hplain, rfl⟩ := safeChildren_eq_ok_iff.mp hchildren
    exact ⟨⟨hroot, hmarker, hplain⟩, (Except.ok.inj hfound).symm⟩
  · rintro ⟨hmarked, rfl⟩
    exact ⟨hmarked.root, hmarked.marker, _, safeChildren_eq_ok_iff.mpr ⟨hmarked.plain, rfl⟩, rfl⟩

theorem directoryRecords_eq_ok_iff {found : List Record} :
    directoryRecords card top relative = .ok found
      ↔ (∀ name node, card.nodes.get? (top :: relative ++ [name]) = some node →
          node.Plain ∧ safeName name = true)
        ∧ found = card.ownRecords top relative := by
  rw [directoryRecords, bind_eq_ok_iff]
  constructor
  · rintro ⟨children, hchildren, h⟩
    obtain ⟨hplain, rfl⟩ := safeChildren_eq_ok_iff.mp hchildren
    obtain ⟨hsafe, hfound⟩ := check_bind_eq_ok_iff _ _ _ |>.mp h
    rw [checkAll_eq_ok_iff] at hsafe
    refine ⟨fun name node hnode => ⟨hplain name node hnode, ?_⟩, (Except.ok.inj hfound).symm⟩
    exact (require_eq_ok_iff _ _).mp (hsafe (name, node) (mem_children.mpr hnode))
  · rintro ⟨hchildren, rfl⟩
    refine ⟨_, safeChildren_eq_ok_iff.mpr ⟨fun name node h => (hchildren name node h).1, rfl⟩, ?_⟩
    refine (check_bind_eq_ok_iff _ _ _).mpr ⟨?_, rfl⟩
    rw [checkAll_eq_ok_iff]
    rintro ⟨name, node⟩ hchild
    exact (require_eq_ok_iff _ _).mpr (hchildren name node (mem_children.mp hchild)).2

theorem treeRecords_eq_ok_iff {found : List Record} :
    treeRecords card top = .ok found ↔ card.Readable top ∧ found = card.records top := by
  have hvalue : ∀ relative ∈ card.directoriesBelow top, ∀ found,
      directoryRecords card top relative = .ok found → found = card.ownRecords top relative :=
    fun _ _ _ h => (directoryRecords_eq_ok_iff.mp h).2
  rw [treeRecords, bind_eq_ok_iff]
  constructor
  · rintro ⟨lists, hlists, hfound⟩
    obtain ⟨hall, rfl⟩ := (mapEach_eq_ok_iff hvalue lists).mp hlists
    refine ⟨fun relative name node hnode => ?_, (Except.ok.inj hfound).symm⟩
    have hdirectory := card.parents _ _ (by rw [hnode]; exact Option.some_ne_none _)
    have hread := hall relative (mem_directoriesBelow.mpr hdirectory)
    exact (directoryRecords_eq_ok_iff.mp hread).1 name node hnode
  · rintro ⟨hreadable, rfl⟩
    refine ⟨_, (mapEach_eq_ok_iff hvalue _).mpr ⟨fun relative _ => ?_, rfl⟩, rfl⟩
    exact directoryRecords_eq_ok_iff.mpr ⟨hreadable relative, rfl⟩

end FolderCard

/-! ### Hashes -/

/-- The lengths of a record fit into their fields. -/
def Record.Encodable : Record → Prop
  | .directory relative => relative.length < 256 ^ 4
  | .file relative content => relative.length < 256 ^ 4 ∧ content.length < 256 ^ 8

def Record.encoded : Record → Bytes
  | .directory relative => (0x64 : UInt8) :: Bytes.littleBytes relative.length 4 ++ relative
  | .file relative content => (0x66 : UInt8) :: Bytes.littleBytes relative.length 4 ++ relative
      ++ Bytes.littleBytes content.length 8 ++ content

theorem toBytes_eq_ok_iff {n width : ℕ} {raw : Bytes} :
    toBytes n width = .ok raw ↔ n < 256 ^ width ∧ raw = Bytes.littleBytes n width := by
  rw [toBytes]
  split
  · next h => simp [h, eq_comm]
  · next h => simp [h]

theorem encodeRecord_eq_ok_iff {record : Record} {raw : Bytes} :
    encodeRecord record = .ok raw ↔ record.Encodable ∧ raw = record.encoded := by
  cases record with
  | directory relative =>
    rw [encodeRecord, bind_eq_ok_iff]
    constructor
    · rintro ⟨_, hlength, hraw⟩
      obtain ⟨hlt, rfl⟩ := toBytes_eq_ok_iff.mp hlength
      exact ⟨hlt, (Except.ok.inj hraw).symm⟩
    · rintro ⟨hlt, rfl⟩
      exact ⟨_, toBytes_eq_ok_iff.mpr ⟨hlt, rfl⟩, rfl⟩
  | file relative content =>
    rw [encodeRecord, bind_eq_ok_iff]
    constructor
    · rintro ⟨_, hlength, hrest⟩
      obtain ⟨hlt, rfl⟩ := toBytes_eq_ok_iff.mp hlength
      obtain ⟨_, hcontent, hraw⟩ := bind_eq_ok_iff.mp hrest
      obtain ⟨hcontentLt, rfl⟩ := toBytes_eq_ok_iff.mp hcontent
      exact ⟨⟨hlt, hcontentLt⟩, (Except.ok.inj hraw).symm⟩
    · rintro ⟨⟨hlt, hcontentLt⟩, rfl⟩
      exact ⟨_, toBytes_eq_ok_iff.mpr ⟨hlt, rfl⟩,
        bind_eq_ok_iff.mpr ⟨_, toBytes_eq_ok_iff.mpr ⟨hcontentLt, rfl⟩, rfl⟩⟩

section Entries

variable {policy : GroupingPolicy} {sha256 : Bytes → String} {card : FolderCard}
  {containerId : String} {taken : ContainerSnapshot}

/-- The entry of a save. -/
def entryOf (sha256 : Bytes → String) (groups : Bytes → String) (card : FolderCard)
    (top : Bytes) : ContainerEntry where
  identity := hex top
  mergeDomainId := groups top
  canonicalHash := sha256 ((card.records top).map Record.encoded).flatten
  sizeBytes := ((card.records top).map Record.size).sum

theorem saveEntry_eq_ok_iff {groups : Bytes → String} {top : Bytes} {entry : ContainerEntry} :
    saveEntry sha256 groups (top, card.records top) = .ok entry
      ↔ (∀ record ∈ card.records top, record.Encodable)
        ∧ entry = entryOf sha256 groups card top := by
  have hvalue : ∀ record ∈ card.records top, ∀ raw, encodeRecord record = .ok raw →
      raw = record.encoded := fun _ _ _ h => (encodeRecord_eq_ok_iff.mp h).2
  rw [saveEntry, bind_eq_ok_iff]
  constructor
  · rintro ⟨_, hhash, hentry⟩
    obtain ⟨encoded, hencoded, hpair⟩ := bind_eq_ok_iff.mp hhash
    obtain rfl := Except.ok.inj hpair
    obtain ⟨hall, rfl⟩ := (mapEach_eq_ok_iff hvalue _).mp hencoded
    exact ⟨fun record hrecord => (encodeRecord_eq_ok_iff.mp (hall record hrecord)).1,
      (Except.ok.inj hentry).symm⟩
  · rintro ⟨hall, rfl⟩
    refine ⟨_, bind_eq_ok_iff.mpr ⟨_, (mapEach_eq_ok_iff hvalue _).mpr ⟨?_, rfl⟩, rfl⟩, rfl⟩
    exact fun record hrecord => encodeRecord_eq_ok_iff.mpr ⟨hall record hrecord, rfl⟩

/-- The trees of a card are read without a refusal. -/
structure Legible (card : FolderCard) : Prop where
  marked : card.Marked
  readable : ∀ top ∈ card.tops, card.Readable top

/-- The saves of a card are hashed without a refusal. -/
structure Sound (card : FolderCard) : Prop extends Legible card where
  encodable : ∀ top ∈ card.saves, ∀ record ∈ card.records top, record.Encodable

/-- The snapshot of a card whose saves have these merge domains. -/
def snapshotOf (policy : GroupingPolicy) (sha256 : Bytes → String) (groups : Bytes → String)
    (card : FolderCard) (containerId : String) : ContainerSnapshot where
  containerId := containerId
  adapterId := "pcsx2-folder-memory-card"
  schemaVersion := 1 * 1000 + policy.schemaVersion
  formatVariant := "pcsx2-folder-card:" ++ policy.policyId
  entries := sortedByIdentity (card.saves.map (entryOf sha256 groups card))

/-- **Snapshots.** A card has one if it is sound and the policy groups its saves. -/
theorem snapshot_eq_ok_iff : snapshot policy sha256 card containerId = .ok taken
    ↔ Sound card ∧ ∃ groups, policy.group (card.saves.insertionSort (· ≤ ·)) = .ok groups
      ∧ taken = snapshotOf policy sha256 groups card containerId := by
  have htrees : ∀ top ∈ card.tops, ∀ tree,
      (treeRecords card top).map (Prod.mk top) = .ok tree → tree = (top, card.records top) := by
    intro top _ tree h
    obtain ⟨found, hfound, rfl⟩ := map_eq_ok h
    rw [(FolderCard.treeRecords_eq_ok_iff.mp hfound).2]
  have hrecorded : (card.tops.map fun top => (top, card.records top)).filter
      (fun r => r.2.any Record.isFile) = card.saves.map fun top => (top, card.records top) := by
    rw [List.filter_map]
    rfl
  have hnames :
      ((card.saves.map fun top => (top, card.records top)).map Prod.fst) = card.saves := by
    rw [List.map_map]
    exact List.map_id _
  have hentry : ∀ groups, ∀ r ∈ card.saves.map fun top => (top, card.records top), ∀ entry,
      saveEntry sha256 groups r = .ok entry → entry = entryOf sha256 groups card r.1 := by
    intro groups r hr entry h
    obtain ⟨top, -, rfl⟩ := List.mem_map.mp hr
    exact (saveEntry_eq_ok_iff.mp h).2
  rw [snapshot, bind_eq_ok_iff]
  constructor
  · rintro ⟨tops, htops, h⟩
    obtain ⟨hmarked, rfl⟩ := FolderCard.topDirectories_eq_ok_iff.mp htops
    obtain ⟨trees, hread, h⟩ := bind_eq_ok_iff.mp h
    obtain ⟨hall, rfl⟩ := (mapEach_eq_ok_iff htrees _).mp hread
    dsimp only at h
    rw [hrecorded, hnames] at h
    obtain ⟨groups, hgroups, h⟩ := bind_eq_ok_iff.mp h
    obtain ⟨entries, hentries, h⟩ := bind_eq_ok_iff.mp h
    obtain ⟨hsaves, rfl⟩ := (mapEach_eq_ok_iff (hentry groups) _).mp hentries
    refine ⟨⟨⟨hmarked, fun top htop => ?_⟩, fun top htop => ?_⟩, groups, hgroups, ?_⟩
    · obtain ⟨found, hfound, -⟩ := map_eq_ok (hall top htop)
      exact (FolderCard.treeRecords_eq_ok_iff.mp hfound).1
    · exact (saveEntry_eq_ok_iff.mp (hsaves _ (List.mem_map_of_mem htop))).1
    · rw [List.map_map] at h
      exact (Except.ok.inj h).symm
  · rintro ⟨hsound, groups, hgroups, rfl⟩
    refine ⟨_, FolderCard.topDirectories_eq_ok_iff.mpr ⟨hsound.marked, rfl⟩, ?_⟩
    refine bind_eq_ok_iff.mpr ⟨_, (mapEach_eq_ok_iff htrees _).mpr ⟨fun top htop => ?_, rfl⟩, ?_⟩
    · rw [FolderCard.treeRecords_eq_ok_iff.mpr ⟨hsound.readable top htop, rfl⟩]
      rfl
    · dsimp only
      rw [hrecorded, hnames]
      refine bind_eq_ok_iff.mpr ⟨groups, hgroups, ?_⟩
      refine bind_eq_ok_iff.mpr ⟨_, (mapEach_eq_ok_iff (hentry groups) _).mpr ⟨?_, rfl⟩, ?_⟩
      · intro r hr
        obtain ⟨top, htop, rfl⟩ := List.mem_map.mp hr
        exact saveEntry_eq_ok_iff.mpr ⟨hsound.encodable top htop, rfl⟩
      · rw [List.map_map]
        rfl

end Entries

end RomCloud.Containers
