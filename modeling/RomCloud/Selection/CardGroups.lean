import RomCloud.SaveSync.Manifest
import RomCloud.Selection.Grouping

namespace RomCloud.Selection

open Lib

/-!
# Physical cards and their conflict groups

The layouts grouped by `root_file` are those of memory cards, one file a card.  The registry says
of each that a card is a conflict unit of its own.

* `rootFileKey_eq_iff` — what the key of a card keeps of its path;
* `rootFile_layouts` — the roots of these layouts are told apart by it;
* `Apart` — the cards that are, `cards_apart_iff` — that these get groups of their own, and that a
  conflict of one of them then looks at no other.
-/

/-- The registry as the policy of SaveSync. -/
def policy (C : CaseFolding) (layouts : List SaveLayout) : SaveSync.SaveSelectionPolicy where
  layouts := layouts.map fun layout =>
    ⟨layout.layoutId, layout.system, layout.requiresOptIn, layout.groupBy.text,
      layout.containerAdapterId⟩
  groupForPath path := (groupForPath C layouts path).map fun d =>
    ⟨d.groupId, d.layoutId, d.system, d.containerId, d.containerAdapterId, d.containerKind.text⟩

/-- `_scan_conflict_sides`, of one side: the files of the conflict's layout and group. -/
def scanConflictSide (policy : SaveSync.SaveSelectionPolicy) (layoutId groupId : String)
    (side : SaveSync.Manifest) : SaveSync.Manifest :=
  side.restrict fun path =>
    (policy.groupForPath path).any (fun d => d.layoutId = layoutId)
      && SaveSync.groupId policy path = groupId

/-- The directory of a card: the root of its layout. -/
def cardRoot (layout : SaveLayout) (path : String) : List String :=
  ((posixParts path).drop 1).take (segments layout.rootPattern).length

/-- The name of a card without its last suffix. -/
def cardName (path : String) : List Char := stem ((posixParts path).getLastD "").toList

/-- Cards in different roots, or with names that differ in more than letter case and the last
    suffix. -/
def Apart (C : CaseFolding) (layout : SaveLayout) (path other : String) : Prop :=
  cardRoot layout path ≠ cardRoot layout other
    ∨ C.casefold (cardName path) ≠ C.casefold (cardName other)

/-! ### Keys -/

/-- A root with the `/` behind each of its components. -/
def rootPrefix (root : List String) : List Char := root.flatMap fun part => part.toList ++ ['/']

theorem toList_intercalate_append (root : List String) (name : List Char) :
    ("/".intercalate (root ++ [String.ofList name])).toList = rootPrefix root ++ name := by
  rw [String.toList_intercalate, List.map_append]
  induction root with
  | nil => simp [rootPrefix]
  | cons part root ih =>
    obtain ⟨first, rest, hrest⟩ := List.exists_cons_of_ne_nil (l := List.map String.toList root
      ++ List.map String.toList [String.ofList name]) (by simp)
    rw [List.map_cons, List.cons_append, hrest, List.intercalate_cons_cons, ← hrest, ih,
      rootPrefix, rootPrefix, List.flatMap_cons]
    simp

/-- Roots whose prefixes fold to texts of one length, different ones to different texts. -/
def ToldApart (C : CaseFolding) (roots : List (List String)) : Prop :=
  ∀ root ∈ roots, ∀ other ∈ roots,
    (C.casefold (rootPrefix root)).length = (C.casefold (rootPrefix other)).length ∧
    (C.casefold (rootPrefix root) = C.casefold (rootPrefix other) → root = other)

variable {C : CaseFolding}

theorem folded_rootFile (root : List String) (name : List Char) :
    folded C ("/".intercalate (root ++ [String.ofList name]))
      = String.ofList (C.casefold (rootPrefix root) ++ C.casefold name) := by
  rw [folded, toList_intercalate_append, CaseFolding.casefold_append]

/-- What the key of a card keeps of its path. -/
theorem rootFileKey_eq_iff {roots : List (List String)} (h : ToldApart C roots)
    {root other : List String} (hroot : root ∈ roots) (hother : other ∈ roots)
    (name otherName : List Char) :
    folded C ("/".intercalate (root ++ [String.ofList name]))
        = folded C ("/".intercalate (other ++ [String.ofList otherName]))
      ↔ root = other ∧ C.casefold name = C.casefold otherName := by
  rw [folded_rootFile, folded_rootFile, String.ofList_inj]
  constructor
  · intro heq
    obtain ⟨hfolded, hname⟩ := List.append_inj heq (h root hroot other hother).1
    exact ⟨(h root hroot other hother).2 hfolded, hname⟩
  · rintro ⟨rfl, hname⟩
    rw [hname]

/-! ### Roots -/

/-- The root of a layout without tokens is the pattern itself. -/
theorem root_eq_of_literal {patterns root : List String}
    (hliteral : ∀ pattern ∈ patterns, tokenValidator pattern = none)
    (h : List.Forall₂ (fun pattern value => segmentMatches pattern value = true) patterns root) :
    root = patterns := by
  induction h with
  | nil => rfl
  | @cons pattern value patterns root hmatch _ ih =>
    rw [segmentMatches, hliteral pattern List.mem_cons_self] at hmatch
    rw [← of_decide_eq_true hmatch, ih fun p hp => hliteral p (List.mem_cons_of_mem _ hp)]

/-- The segments of Dolphin's GCI folders. -/
def gciSegments : List String := ["GC", "{dolphin_gc_region}", "{dolphin_gc_card}"]

/-- The GCI folders. -/
def gciRoots : List (List String) :=
  ["EUR", "USA", "JAP", "JPN"].flatMap fun region =>
    ["Card A", "Card B"].map fun card => ["GC", region, card]

theorem mem_gciRoots {root : List String}
    (h : List.Forall₂ (fun pattern value => segmentMatches pattern value = true)
      gciSegments root) : root ∈ gciRoots := by
  obtain ⟨a, as, ha, has, rfl⟩ := List.forall₂_cons_left_iff.mp h
  obtain ⟨b, bs, hb, hbs, rfl⟩ := List.forall₂_cons_left_iff.mp has
  obtain ⟨c, cs, hc, hcs, rfl⟩ := List.forall₂_cons_left_iff.mp hbs
  obtain rfl := List.forall₂_nil_left_iff.mp hcs
  obtain rfl : "GC" = a := of_decide_eq_true ha
  have hregion : b ∈ ["EUR", "USA", "JAP", "JPN"] := List.contains_iff_mem.mp hb
  have hcard : c ∈ ["Card A", "Card B"] := List.contains_iff_mem.mp hc
  exact List.mem_flatMap.mpr ⟨b, hregion, List.mem_map.mpr ⟨c, hcard, rfl⟩⟩

theorem toldApart_singleton (root : List String) : ToldApart C [root] := by
  intro r hr s hs
  rw [List.mem_singleton.mp hr, List.mem_singleton.mp hs]
  exact ⟨rfl, fun _ => rfl⟩

theorem toldApart_gciRoots : ToldApart C gciRoots := by
  have hascii : ∀ root ∈ gciRoots, ∀ c ∈ rootPrefix root, c.toNat < 128 := by
    have hall : (gciRoots.all fun root => (rootPrefix root).all fun c => c.toNat < 128) = true := by
      decide +kernel
    intro root hroot c hc
    exact of_decide_eq_true (List.all_eq_true.mp (List.all_eq_true.mp hall root hroot) c hc)
  have hlower : ∀ root ∈ gciRoots, ∀ other ∈ gciRoots,
      ((rootPrefix root).map Char.toLower).length = ((rootPrefix other).map Char.toLower).length ∧
      ((rootPrefix root).map Char.toLower = (rootPrefix other).map Char.toLower →
        root = other) := by
    decide +kernel
  intro root hroot other hother
  rw [C.casefold_ascii (hascii root hroot), C.casefold_ascii (hascii other hother)]
  exact hlower root hroot other hother

theorem groupBy_of_mem_retroarchLayouts {layout : SaveLayout} (h : layout ∈ retroarchLayouts) :
    layout.groupBy = .rootStem := by
  obtain ⟨system, -, rfl⟩ := List.mem_map.mp h
  rfl

theorem mem_standaloneLayouts {layout : SaveLayout} (h : layout ∈ layouts)
    (hgroup : layout.groupBy = .rootFile) : layout ∈ standaloneLayouts := by
  rcases List.mem_append.mp h with hretroarch | hstandalone
  · rw [groupBy_of_mem_retroarchLayouts hretroarch] at hgroup
    cases hgroup
  · exact hstandalone

/-- The layouts of cards: their roots are literal, or GCI folders. -/
theorem rootFile_layouts : ∀ layout ∈ layouts, layout.groupBy = .rootFile →
    (layout.system ≠ "" ∧ layout.system ≠ "." ∧ '/' ∉ layout.system.toList) ∧
    ((∀ pattern ∈ segments layout.rootPattern, (tokenValidator pattern).isNone) ∨
      segments layout.rootPattern = gciSegments) := by
  intro layout hlayout hgroup
  have hstandalone := mem_standaloneLayouts hlayout hgroup
  revert layout
  decide +kernel

/-- No other layout has the id of a layout of cards. -/
theorem eq_of_layoutId {card layout : SaveLayout} (hcard : card ∈ layouts)
    (hgroup : card.groupBy = .rootFile) (hlayout : layout ∈ layouts)
    (hid : layout.layoutId = card.layoutId) : layout = card := by
  have hstandalone := mem_standaloneLayouts hcard hgroup
  have hnodup : (standaloneLayouts.map SaveLayout.layoutId).Nodup := by decide +kernel
  have hother : ∀ l ∈ standaloneLayouts, l.layoutId.toList.take 9 ≠ "retroarch".toList := by
    decide +kernel
  rcases List.mem_append.mp hlayout with hretroarch | hlayout
  · obtain ⟨system, -, rfl⟩ := List.mem_map.mp hretroarch
    have htake : ("retroarch-root-" ++ system).toList.take 9 = "retroarch".toList := by
      rw [String.toList_append]
      rfl
    exact absurd (hid ▸ htake) (hother card hstandalone)
  · exact List.inj_on_of_nodup_map hnodup hlayout hstandalone hid

/-! ### Groups of cards -/

/-- The roots that a layout of cards can have. -/
def rootsOf (layout : SaveLayout) : List (List String) :=
  if segments layout.rootPattern = gciSegments then gciRoots else [segments layout.rootPattern]

theorem toldApart_rootsOf (layout : SaveLayout) : ToldApart C (rootsOf layout) := by
  unfold rootsOf
  split
  · exact toldApart_gciRoots
  · exact toldApart_singleton _

variable {card : SaveLayout} {path other : String} {d e : SaveGroupDescriptor}

/-- The group of a card, by its root and its name. -/
theorem groupId_of_card (hcard : card ∈ layouts) (hgroup : card.groupBy = .rootFile)
    (h : groupForPath C layouts path = some d) (hd : d.layoutId = card.layoutId) :
    cardRoot card path ∈ rootsOf card ∧
    d.groupId = card.layoutId ++ "/" ++
      folded C ("/".intercalate (cardRoot card path ++ [String.ofList (cardName path)])) := by
  obtain ⟨layout, hlayout, relativePath, root, remainder, hpath, -, hmatched, rfl⟩ :=
    groupForPath_spec h
  obtain rfl : layout = card := eq_of_layoutId hcard hgroup hlayout hd
  obtain ⟨⟨hsystem, hdot, hslash⟩, hroots⟩ := rootFile_layouts layout hcard hgroup
  have hparts : posixParts path = layout.system :: (root ++ remainder) := by
    rw [hpath, posixParts_append, posixParts_name hslash hsystem hdot, hmatched.parts]
    rfl
  have hlength : root.length = (segments layout.rootPattern).length := hmatched.roots.length_eq.symm
  have hcardRoot : cardRoot layout path = root := by
    rw [cardRoot, hparts, List.drop_one, List.tail_cons, List.take_left' hlength]
  have hname : cardName path = stem (remainder.getLastD "").toList := by
    rw [cardName, hparts, ← List.cons_append, List.getLastD_eq_getLast?, List.getLastD_eq_getLast?,
      List.getLast?_append_of_ne_nil _ hmatched.below]
  rw [hcardRoot, hname]
  constructor
  · unfold rootsOf
    split
    · next hgci => exact mem_gciRoots (hgci ▸ hmatched.roots)
    · next hgci =>
      rw [List.mem_singleton]
      apply root_eq_of_literal _ hmatched.roots
      intro pattern hpattern
      exact Option.isNone_iff_eq_none.mp (hroots.resolve_right hgci pattern hpattern)
  · show layout.layoutId ++ "/" ++ groupKey C layout root remainder = _
    rw [groupKey, hgroup]

/-- **Cards and groups.** Two cards of one layout get different groups exactly when they are apart,
    and then no file of the one is looked at for a conflict of the other. -/
theorem cards_apart_iff (hcard : card ∈ layouts) (hgroup : card.groupBy = .rootFile)
    (h : groupForPath C layouts path = some d) (hd : d.layoutId = card.layoutId)
    (hother : groupForPath C layouts other = some e) (he : e.layoutId = card.layoutId) :
    (d.groupId ≠ e.groupId ↔ Apart C card path other) ∧
    ∀ side artifact, SaveSync.Manifest.get? side other = some artifact →
      ((scanConflictSide (policy C layouts) d.layoutId d.groupId side).get? other = none
        ↔ Apart C card path other) := by
  obtain ⟨hroot, hid⟩ := groupId_of_card hcard hgroup h hd
  obtain ⟨hroot', hid'⟩ := groupId_of_card hcard hgroup hother he
  have hiff : d.groupId ≠ e.groupId ↔ Apart C card path other := by
    rw [hid, hid', Ne, String.append_right_inj,
      rootFileKey_eq_iff (toldApart_rootsOf card) hroot hroot', Apart, not_and_or]
  refine ⟨hiff, ?_⟩
  intro side artifact hside
  have hpolicy : ∃ found, (policy C layouts).groupForPath other = some found ∧
      found.layoutId = e.layoutId ∧ found.groupId = e.groupId :=
    ⟨_, congrArg (Option.map _) hother, rfl, rfl⟩
  obtain ⟨found, hfound, hlayout, hid⟩ := hpolicy
  have hgroupId : SaveSync.groupId (policy C layouts) other = e.groupId := by
    rw [SaveSync.groupId, hfound]
    exact hid
  rw [scanConflictSide, SaveSync.Manifest.get?_restrict, ← hiff, hgroupId, hfound, Option.any_some,
    hlayout, he, hd, hside]
  by_cases heq : e.groupId = d.groupId
  · simp [heq]
  · simp [heq, Ne.symm heq]

/-- A path below a system that RetroArch has no root layout for. -/
theorem groupForPath_of_only_standalone (layout : SaveLayout) (relativePath : String)
    {root remainder : List String} (hlayout : layout ∈ standaloneLayouts)
    (hplain : '/' ∉ layout.system.toList) (hsystem : layout.system ∉ retroarchSrmSystems)
    (hcanonical : isCanonical (layout.system ++ "/" ++ relativePath) = true)
    (hmatch : matchLayout layout relativePath = some (root, remainder))
    (honly : ∀ other ∈ standaloneLayouts, other.system = layout.system → other = layout ∨
      matchLayout other relativePath = none) :
    groupForPath C layouts (layout.system ++ "/" ++ relativePath)
      = some (descriptor C layout (layout.system ++ "/" ++ relativePath) root remainder) := by
  refine groupForPath_of_only (List.mem_append_right _ hlayout) hplain hcanonical hmatch ?_
  intro other hother hsame
  rcases List.mem_append.mp hother with hretroarch | hstandalone
  · obtain ⟨system, hmem, rfl⟩ := List.mem_map.mp hretroarch
    rw [List.mem_insertionSort, List.mem_filter] at hmem
    exact absurd (hsame ▸ hmem.1) hsystem
  · exact honly other hstandalone hsame

/-- The layout of PCSX2's card slots. -/
def slotLayout : SaveLayout :=
  { layoutId := "pcsx2-memory-cards", system := "ps2", rootPattern := "pcsx2",
    eligibleFiles := ["Mcd*.ps2"], shared := true, groupBy := .rootFile,
    containerAdapterId := "pcsx2-monolithic-file-card", containerPolicyId := "opaque-only",
    containerKind := .file }

/-- Two card slots of PCSX2 are apart. -/
theorem slots_apart : ∃ d e,
    groupForPath .german layouts "ps2/pcsx2/Mcd001.ps2" = some d ∧
    groupForPath .german layouts "ps2/pcsx2/Mcd002.ps2" = some e ∧ d.groupId ≠ e.groupId := by
  have hfirst := @groupForPath_of_only_standalone .german slotLayout "pcsx2/Mcd001.ps2"
    ["pcsx2"] ["Mcd001.ps2"]
    (by decide +kernel) (by decide +kernel) (by decide +kernel) (by decide +kernel)
    (by decide +kernel) (by decide +kernel)
  have hsecond := @groupForPath_of_only_standalone .german slotLayout "pcsx2/Mcd002.ps2"
    ["pcsx2"] ["Mcd002.ps2"]
    (by decide +kernel) (by decide +kernel) (by decide +kernel) (by decide +kernel)
    (by decide +kernel) (by decide +kernel)
  have happart : Apart .german slotLayout "ps2/pcsx2/Mcd001.ps2" "ps2/pcsx2/Mcd002.ps2" :=
    Or.inr (by decide +kernel)
  refine ⟨_, _, hfirst, hsecond, ?_⟩
  exact (cards_apart_iff (List.mem_append_right _ (by decide +kernel)) rfl hfirst rfl hsecond
    rfl).1.mpr happart

/-- The layout of DuckStation's cards. -/
def cardLayout : SaveLayout :=
  { layoutId := "duckstation-memory-cards", system := "duckstation", rootPattern := "memcards",
    recursive := true, exclusions := ["*_resume.sav"], shared := true, groupBy := .rootFile,
    containerAdapterId := "ps1-raw-memory-card", containerPolicyId := "ps1-commercial-namespace",
    containerKind := .file }

/-- A card that was put aside in a directory of its own has the group of the card in use. -/
theorem oldCard_shared : ∃ d e,
    groupForPath .german layouts "duckstation/memcards/shared_card_1.mcd" = some d ∧
    groupForPath .german layouts "duckstation/memcards/old/shared_card_1.mcd" = some e ∧
    d.layoutId = "duckstation-memory-cards" ∧ e.layoutId = "duckstation-memory-cards" ∧
    d.groupId = e.groupId := by
  have hcard := @groupForPath_of_only_standalone .german cardLayout "memcards/shared_card_1.mcd"
    ["memcards"] ["shared_card_1.mcd"]
    (by decide +kernel) (by decide +kernel) (by decide +kernel) (by decide +kernel)
    (by decide +kernel) (by decide +kernel)
  have hold := @groupForPath_of_only_standalone .german cardLayout "memcards/old/shared_card_1.mcd"
    ["memcards"] ["old", "shared_card_1.mcd"]
    (by decide +kernel) (by decide +kernel) (by decide +kernel) (by decide +kernel)
    (by decide +kernel) (by decide +kernel)
  exact ⟨_, _, hcard, hold, rfl, rfl, by decide +kernel⟩

end RomCloud.Selection
