import RomCloud.Containers.FolderRecords

namespace RomCloud.Containers

open Lib
open SaveSync (ContainerEntry ContainerSnapshot sortedByIdentity)

/-!
# The identity of a folder card

* `joined_inj`, `encoded_inj`, `hex_inj` — paths, records and names are determined by their bytes;
* `records_eq_iff` — the records of a tree determine its nodes;
* `entries_eq_iff` — two snapshots have the same entries exactly if the cards have the same files
  and the same directories below the saves.
-/

/-! ### Encodings -/

/-- Paths of safe names are determined by their bytes. -/
theorem joined_inj {relative other : CardPath} (h : ∀ name ∈ relative, safeName name = true)
    (hother : ∀ name ∈ other, safeName name = true) (hne : relative ≠ []) (hotherNe : other ≠ [])
    (heq : joined relative = joined other) : relative = other := by
  have hslash : ∀ {names : CardPath}, (∀ name ∈ names, safeName name = true) →
      ∀ name ∈ names, (0x2F : UInt8) ∉ name := by
    intro names hnames name hname hmem
    have hsafe := hnames name hname
    simp [safeName, hmem] at hsafe
  rw [← List.splitOn_intercalate 0x2F (hslash h) hne,
    ← List.splitOn_intercalate 0x2F (hslash hother) hotherNe]
  exact congrArg (List.splitOn 0x2F) heq

/-- No encoded record begins another one. -/
theorem encoded_append_inj {record other : Record} (h : record.Encodable)
    (hother : other.Encodable) {rest more : Bytes}
    (heq : record.encoded ++ rest = other.encoded ++ more) : record = other ∧ rest = more := by
  have hpath : ∀ {relative path rest more : Bytes}, relative.length < 256 ^ 4 →
      path.length < 256 ^ 4 →
      Bytes.littleBytes relative.length 4 ++ (relative ++ rest)
        = Bytes.littleBytes path.length 4 ++ (path ++ more) → relative = path ∧ rest = more := by
    intro relative path rest more hlt hpathLt heq
    obtain ⟨hlength, htail⟩ := List.append_inj heq (by simp)
    exact List.append_inj htail (Bytes.littleBytes_inj hlt hpathLt hlength)
  cases record with
  | directory relative =>
    cases other with
    | directory path =>
      simp only [Record.encoded, List.cons_append, List.append_assoc, List.cons.injEq, true_and]
        at heq
      obtain ⟨rfl, hrest⟩ := hpath h hother heq
      exact ⟨rfl, hrest⟩
    | file path content => exact absurd heq (by simp [Record.encoded])
  | file relative content =>
    cases other with
    | directory path => exact absurd heq (by simp [Record.encoded])
    | file path bytes =>
      simp only [Record.encoded, List.cons_append, List.append_assoc, List.cons.injEq, true_and]
        at heq
      obtain ⟨rfl, hafter⟩ := hpath h.1 hother.1 heq
      obtain ⟨hlength, htail⟩ := List.append_inj hafter (by simp)
      obtain ⟨rfl, hrest⟩ := List.append_inj htail (Bytes.littleBytes_inj h.2 hother.2 hlength)
      exact ⟨rfl, hrest⟩

/-- The records of a tree are determined by the bytes that are digested. -/
theorem encoded_inj {records others : List Record} (h : ∀ record ∈ records, record.Encodable)
    (hothers : ∀ record ∈ others, record.Encodable)
    (heq : (records.map Record.encoded).flatten = (others.map Record.encoded).flatten) :
    records = others := by
  have hcons : ∀ {record : Record} {rest : Bytes}, record.encoded ++ rest ≠ [] := by
    intro record rest
    cases record <;> simp [Record.encoded]
  induction records generalizing others with
  | nil =>
    cases others with
    | nil => rfl
    | cons other more => exact absurd heq.symm hcons
  | cons record rest ih =>
    cases others with
    | nil => exact absurd heq hcons
    | cons other more =>
      rw [List.map_cons, List.map_cons, List.flatten_cons, List.flatten_cons] at heq
      obtain ⟨rfl, hrest⟩ := encoded_append_inj (h record List.mem_cons_self)
        (hothers other List.mem_cons_self) heq
      rw [ih (fun r hr => h r (List.mem_cons_of_mem _ hr))
        (fun r hr => hothers r (List.mem_cons_of_mem _ hr)) hrest]

theorem hexDigit_inj {n m : ℕ} (hn : n < 16) (hm : m < 16) (h : hexDigit n = hexDigit m) :
    n = m := by
  have hall : ∀ i j : Fin 16, hexDigit i = hexDigit j → i = j := by decide
  exact congrArg Fin.val (hall ⟨n, hn⟩ ⟨m, hm⟩ h)

/-- Names are determined by their hexadecimal digits. -/
theorem hex_inj {raw other : Bytes} (h : hex raw = hex other) : raw = other := by
  have hlist := String.ofList_injective h
  induction raw generalizing other with
  | nil =>
    cases other with
    | nil => rfl
    | cons c more => exact absurd hlist (by simp)
  | cons b rest ih =>
    cases other with
    | nil => exact absurd hlist (by simp)
    | cons c more =>
      simp only [List.flatMap_cons, List.cons_append, List.nil_append, List.cons.injEq] at hlist
      obtain ⟨hhigh, hlow, hrest⟩ := hlist
      have hb := b.toNat_lt
      have hc := c.toNat_lt
      have hhigh := hexDigit_inj (by omega) (by omega) hhigh
      have hlow := hexDigit_inj (by omega) (by omega) hlow
      have hbyte : b.toNat = c.toNat := by omega
      rw [UInt8.toNat_inj.mp hbyte, ih (congrArg String.ofList hrest) hrest]

/-! ### Trees -/

namespace FolderCard

variable {card other : FolderCard} {top : Bytes} {relative : CardPath}

/-- Only top directories hold anything. -/
theorem mem_tops_of_below (hmarked : card.Marked) (hne : relative ≠ [])
    (h : card.nodes.get? (top :: relative) ≠ none) : top ∈ card.tops := by
  have hdirectory : card.nodes.get? [top] = some .directory := by
    have happend : (top :: relative : CardPath) = [top] ++ relative := rfl
    exact directory_of_append hne (happend ▸ h)
  refine mem_tops.mpr ⟨?_, hdirectory⟩
  rintro rfl
  have hmarker := hmarked.marker
  rw [isFile, hdirectory] at hmarker
  exact absurd hmarker (by simp)

/-- The names of a path below a save are safe, and what is there is a file or a directory. -/
theorem safe_of_below (hlegible : Legible card) (h : card.nodes.get? (top :: relative) ≠ none) :
    ∀ name ∈ relative, safeName name = true := by
  intro name hname
  obtain ⟨front, back, rfl⟩ := List.append_of_mem hname
  have hexists : card.nodes.get? (top :: front ++ [name]) ≠ none := by
    cases back with
    | nil => exact h
    | cons second rest =>
      have happend : (top :: (front ++ name :: second :: rest) : CardPath)
          = (top :: front ++ [name]) ++ second :: rest := by simp
      rw [directory_of_append (List.cons_ne_nil second rest) (happend ▸ h)]
      exact Option.some_ne_none _
  obtain ⟨node, hnode⟩ := Option.ne_none_iff_exists'.mp hexists
  have hbelow : front ++ [name] ≠ [] := List.concat_ne_nil name front
  have htop : top ∈ card.tops := mem_tops_of_below hlegible.marked hbelow hexists
  exact (hlegible.readable top htop front name node hnode).2

theorem plain_of_below (hlegible : Legible card) (hne : relative ≠ []) {node : CardNode}
    (h : card.nodes.get? (top :: relative) = some node) :
    node = .directory ∨ ∃ content, node = .file content := by
  have hexists : card.nodes.get? (top :: relative) ≠ none := by
    rw [h]
    exact Option.some_ne_none _
  have htop := mem_tops_of_below hlegible.marked hne hexists
  obtain ⟨front, name, rfl⟩ := (List.eq_nil_or_concat relative).resolve_left hne
  rw [List.concat_eq_append] at h
  have hplain := (hlegible.readable top htop front name node h).1
  cases node with
  | file content => exact Or.inr ⟨content, rfl⟩
  | directory => exact Or.inl rfl
  | symlink => exact absurd rfl hplain.1
  | special => exact absurd rfl hplain.2

/-- What is below a save of one card is below it in another card with the same records. -/
theorem get?_of_records (hlegible : Legible card) (hother : Legible other) (hne : relative ≠ [])
    (hrecords : card.records top = other.records top) {node : CardNode}
    (h : card.nodes.get? (top :: relative) = some node) :
    other.nodes.get? (top :: relative) = some node := by
  have hjoined : ∀ {path : CardPath} {found : CardNode}, path ≠ [] →
      other.nodes.get? (top :: path) = some found → joined relative = joined path →
      relative = path := by
    intro path found hpath hfound heq
    exact joined_inj (safe_of_below hlegible (by rw [h]; exact Option.some_ne_none _))
      (safe_of_below hother (by rw [hfound]; exact Option.some_ne_none _)) hne hpath heq
  rcases plain_of_below hlegible hne h with rfl | ⟨content, rfl⟩
  · have hmem : Record.directory (joined relative) ∈ other.records top := by
      rw [← hrecords]
      exact mem_records.mpr ⟨relative, hne, Or.inl ⟨h, rfl⟩⟩
    obtain ⟨path, hpath, ⟨hfound, heq⟩ | ⟨content, -, heq⟩⟩ := mem_records.mp hmem
    · rw [hjoined hpath hfound (Record.directory.inj heq)]
      exact hfound
    · exact absurd heq (by simp)
  · have hmem : Record.file (joined relative) content ∈ other.records top := by
      rw [← hrecords]
      exact mem_records.mpr ⟨relative, hne, Or.inr ⟨content, h, rfl⟩⟩
    obtain ⟨path, hpath, ⟨-, heq⟩ | ⟨bytes, hfound, heq⟩⟩ := mem_records.mp hmem
    · exact absurd heq (by simp)
    · obtain ⟨hpaths, rfl⟩ := Record.file.inj heq
      rw [hjoined hpath hfound hpaths]
      exact hfound

/-- **Trees.** The records of a tree determine its nodes, and are determined by them. -/
theorem records_eq_iff (hlegible : Legible card) (hother : Legible other)
    (htop : card.nodes.get? [top] = other.nodes.get? [top]) :
    card.records top = other.records top
      ↔ ∀ relative, card.nodes.get? (top :: relative) = other.nodes.get? (top :: relative) := by
  constructor
  · intro hrecords relative
    by_cases hne : relative = []
    · rw [hne]
      exact htop
    · refine Option.ext fun node => ⟨fun h => ?_, fun h => ?_⟩
      · exact get?_of_records hlegible hother hne hrecords h
      · exact get?_of_records hother hlegible hne hrecords.symm h
  · exact records_congr

/-! ### Saves -/

/-- There is a file below a top directory. -/
def HasFile (card : FolderCard) (top : Bytes) : Prop :=
  ∃ relative ≠ [], ∃ content, card.nodes.get? (top :: relative) = some (.file content)

theorem HasFile.directory (h : card.HasFile top) : card.nodes.get? [top] = some .directory := by
  obtain ⟨relative, hne, content, hfile⟩ := h
  have happend : (top :: relative : CardPath) = [top] ++ relative := rfl
  exact directory_of_append hne (by rw [← happend, hfile]; exact Option.some_ne_none _)

theorem any_isFile_iff : (card.records top).any Record.isFile = true ↔ card.HasFile top := by
  rw [List.any_eq_true]
  constructor
  · rintro ⟨record, hrecord, hfile⟩
    obtain ⟨relative, hne, ⟨-, rfl⟩ | ⟨content, hnode, rfl⟩⟩ := mem_records.mp hrecord
    · exact absurd hfile (by simp [Record.isFile])
    · exact ⟨relative, hne, content, hnode⟩
  · rintro ⟨relative, hne, content, hnode⟩
    exact ⟨_, mem_records.mpr ⟨relative, hne, Or.inr ⟨content, hnode, rfl⟩⟩, rfl⟩

theorem mem_saves (hmarked : card.Marked) : top ∈ card.saves ↔ card.HasFile top := by
  rw [saves, List.mem_filter, any_isFile_iff]
  refine and_iff_right_of_imp ?_
  rintro ⟨relative, hne, content, hnode⟩
  exact mem_tops_of_below hmarked hne (by rw [hnode]; exact Option.some_ne_none _)

/-- The saves are in the order of their names. -/
theorem pairwise_saves (card : FolderCard) : card.saves.Pairwise (· < ·) := by
  have hsorted := List.pairwise_map.mp
    (card.nodes.restrict fun p => p ≠ [] ∧ p.dropLast = []).sorted
  have hchildren : ((card.children []).map Prod.fst).Pairwise (· < ·) := by
    rw [children, List.map_map, List.pairwise_map]
    refine hsorted.imp_of_mem fun {e f} he hf hlt => ?_
    have hsingle : ∀ {e : CardPath × CardNode},
        e ∈ (card.nodes.restrict fun p => p ≠ [] ∧ p.dropLast = []).entries →
        e.1 = [e.1.getLastD []] := by
      rintro ⟨p, n⟩ hmem
      rw [← Dict.get?_eq_some_iff, Dict.get?_restrict] at hmem
      split at hmem
      · next hp =>
        obtain ⟨hne, hparent⟩ := of_decide_eq_true hp
        obtain ⟨front, last, rfl⟩ := (List.eq_nil_or_concat p).resolve_left hne
        rw [List.concat_eq_append, List.dropLast_concat] at hparent
        simp [hparent]
      · exact absurd hmem (by simp)
    rw [hsingle he, hsingle hf] at hlt
    rcases List.cons_lt_cons_iff.mp hlt with hnames | ⟨-, hnil⟩
    · exact hnames
    · exact absurd hnil (lt_irrefl [])
  have htops : card.tops.Pairwise (· < ·) :=
    hchildren.sublist (List.filter_sublist.map Prod.fst)
  exact htops.sublist List.filter_sublist

/-- The same files are below the top directories. -/
def SameFiles (card other : FolderCard) : Prop :=
  ∀ top relative content, relative ≠ [] →
    (card.nodes.get? (top :: relative) = some (.file content)
      ↔ other.nodes.get? (top :: relative) = some (.file content))

/-- The same directories are below the top directories with files. -/
def SameDirectories (card other : FolderCard) : Prop :=
  ∀ top relative, card.HasFile top →
    (card.nodes.get? (top :: relative) = some .directory
      ↔ other.nodes.get? (top :: relative) = some .directory)

theorem SameFiles.hasFile_iff (h : card.SameFiles other) :
    card.HasFile top ↔ other.HasFile top := by
  constructor
  · rintro ⟨relative, hne, content, hnode⟩
    exact ⟨relative, hne, content, (h _ _ _ hne).mp hnode⟩
  · rintro ⟨relative, hne, content, hnode⟩
    exact ⟨relative, hne, content, (h _ _ _ hne).mpr hnode⟩

/-- The same files and directories are the same nodes. -/
theorem get?_eq_of_same (hlegible : Legible card) (hother : Legible other)
    (hfiles : card.SameFiles other) (hdirectories : card.SameDirectories other) (htop : card.HasFile top) :
    card.nodes.get? (top :: relative) = other.nodes.get? (top :: relative) := by
  by_cases hne : relative = []
  · rw [hne, htop.directory, (hfiles.hasFile_iff.mp htop).directory]
  refine Option.ext fun node => ⟨fun h => ?_, fun h => ?_⟩
  · rcases plain_of_below hlegible hne h with rfl | ⟨content, rfl⟩
    · exact (hdirectories top relative htop).mp h
    · exact (hfiles top relative content hne).mp h
  · rcases plain_of_below hother hne h with rfl | ⟨content, rfl⟩
    · exact (hdirectories top relative htop).mpr h
    · exact (hfiles top relative content hne).mpr h

/-- Two cards have the same saves with the same records exactly if they have the same files, and the
    same directories below the saves. -/
theorem records_eq_iff_same (hlegible : Legible card) (hother : Legible other) :
    (card.saves = other.saves ∧ ∀ top ∈ card.saves, card.records top = other.records top)
      ↔ card.SameFiles other ∧ card.SameDirectories other := by
  constructor
  · rintro ⟨hsaves, hrecords⟩
    have hhas : ∀ {top}, card.HasFile top ↔ other.HasFile top := by
      intro top
      rw [← mem_saves hlegible.marked, hsaves, mem_saves hother.marked]
    have hnodes : ∀ {top}, card.HasFile top → ∀ relative,
        card.nodes.get? (top :: relative) = other.nodes.get? (top :: relative) := by
      intro top htop
      have hsave : top ∈ card.saves := (mem_saves hlegible.marked).mpr htop
      refine (records_eq_iff hlegible hother ?_).mp (hrecords top hsave)
      rw [htop.directory, (hhas.mp htop).directory]
    refine ⟨fun top relative content hne => ⟨fun h => ?_, fun h => ?_⟩, fun top relative htop => ?_⟩
    · rw [← hnodes ⟨relative, hne, content, h⟩]
      exact h
    · rw [hnodes (hhas.mpr ⟨relative, hne, content, h⟩)]
      exact h
    · rw [hnodes htop]
  · rintro ⟨hfiles, hdirectories⟩
    refine ⟨eq_of_pairwise_lt (pairwise_saves card) (pairwise_saves other) fun top => ?_,
      fun top htop => records_congr fun more => ?_⟩
    · rw [mem_saves hlegible.marked, mem_saves hother.marked, hfiles.hasFile_iff]
    · exact get?_eq_of_same hlegible hother hfiles hdirectories
        ((mem_saves hlegible.marked).mp htop)

end FolderCard

/-! ### Snapshots -/

section Snapshots

variable {policy : GroupingPolicy} {sha256 : Bytes → String} {card other : FolderCard}
  {containerId otherId : String} {taken otherTaken : ContainerSnapshot}

theorem mem_snapshotOf {groups : Bytes → String} {entry : ContainerEntry} :
    entry ∈ (snapshotOf policy sha256 groups card containerId).entries
      ↔ ∃ top ∈ card.saves, entry = entryOf sha256 groups card top := by
  rw [snapshotOf, sortedByIdentity, List.mem_insertionSort, List.mem_map]
  exact exists_congr fun top => and_congr_right fun _ => eq_comm

/-- **Identity.** For a digest without collisions, two snapshots have the same entries exactly if
    the cards have the same files, and the same directories below the saves. -/
theorem entries_eq_iff (hsha256 : Function.Injective sha256)
    (h : snapshot policy sha256 card containerId = .ok taken)
    (hother : snapshot policy sha256 other otherId = .ok otherTaken) :
    taken.entries = otherTaken.entries
      ↔ card.SameFiles other ∧ card.SameDirectories other := by
  obtain ⟨hsound, groups, hgroups, rfl⟩ := snapshot_eq_ok_iff.mp h
  obtain ⟨hotherSound, otherGroups, hotherGroups, rfl⟩ := snapshot_eq_ok_iff.mp hother
  rw [← FolderCard.records_eq_iff_same hsound.toLegible hotherSound.toLegible]
  constructor
  · intro heq
    -- the identity of an entry gives its name, and the hash its records
    have hfound : ∀ {a b : FolderCard} {g g' : Bytes → String} {i i' : String}, Sound a → Sound b →
        (snapshotOf policy sha256 g a i).entries = (snapshotOf policy sha256 g' b i').entries →
        ∀ top ∈ a.saves, top ∈ b.saves ∧ a.records top = b.records top := by
      intro a b g g' i i' ha hb hentries top htop
      obtain ⟨found, hmem, hentry⟩ :=
        mem_snapshotOf.mp (hentries ▸ mem_snapshotOf.mpr ⟨top, htop, rfl⟩)
      obtain rfl := hex_inj (congrArg ContainerEntry.identity hentry)
      have hdigested := hsha256 (congrArg ContainerEntry.canonicalHash hentry)
      exact ⟨hmem, encoded_inj (ha.encodable top htop) (hb.encodable top hmem) hdigested⟩
    refine ⟨?_, fun top htop => (hfound hsound hotherSound heq top htop).2⟩
    refine eq_of_pairwise_lt (FolderCard.pairwise_saves card) (FolderCard.pairwise_saves other)
      fun top => ⟨fun htop => ?_, fun htop => ?_⟩
    · exact (hfound hsound hotherSound heq top htop).1
    · exact (hfound hotherSound hsound heq.symm top htop).1
  · rintro ⟨hsaves, hrecords⟩
    rw [← hsaves, hgroups] at hotherGroups
    obtain rfl := Except.ok.inj hotherGroups
    rw [snapshotOf, snapshotOf, ← hsaves]
    refine congrArg sortedByIdentity (List.map_congr_left fun top htop => ?_)
    rw [entryOf, entryOf, hrecords top htop]

end Snapshots

end RomCloud.Containers
