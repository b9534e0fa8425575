import Mathlib.Data.List.Sort
import Mathlib.Data.String.Basic

namespace RomCloud.Selection

/-!
# The registry of save layouts

`core/save_selection.py`: the layouts that ROMCloud supports, as far as a path is matched and
grouped by them.  What only the lifecycle hooks and the discovery of roots read of a layout is left
out.
-/

/-- How the files of a layout are put into conflict groups. -/
inductive GroupBy
  | layout
  | root
  | firstDescendant
  | rootStem
  | rootFile
  | n64Title
  | dolphinState
deriving DecidableEq

/-- The name of a grouping in the source. -/
def GroupBy.text : GroupBy → String
  | .layout => "layout"
  | .root => "root"
  | .firstDescendant => "first_descendant"
  | .rootStem => "root_stem"
  | .rootFile => "root_file"
  | .n64Title => "n64_title"
  | .dolphinState => "dolphin_state"

/-- What a container adapter takes as one container. -/
inductive ContainerKind
  | none
  | file
  | directory
deriving DecidableEq

/-- The name of a kind in the source. -/
def ContainerKind.text : ContainerKind → String
  | .none => ""
  | .file => "file"
  | .directory => "directory"

/-- One save layout.  `rootPattern` is relative to the directory of the system, `eligibleFiles` and
    `exclusions` are relative to the root. -/
structure SaveLayout where
  layoutId : String
  system : String
  rootPattern : String := ""
  recursive : Bool := false
  eligibleFiles : List String := ["*"]
  exclusions : List String := []
  shared : Bool := false
  groupBy : GroupBy := .rootStem
  requiresOptIn : Bool := false
  containerAdapterId : String := ""
  containerPolicyId : String := ""
  containerKind : ContainerKind := .none
deriving DecidableEq

/-! ### RetroArch -/

/-- `_RETROARCH_SRM_SYSTEMS`. -/
def retroarchSrmSystems : List String := [
  "3do", "adam", "advision", "amiga500", "amiga1200", "amigacd32", "amigacdtv", "amstradcpc",
  "pcw", "apfm1000", "arcadia", "archimedes", "arduboy", "astrocade", "atari2600", "atari5200",
  "atari7800", "atari800", "atarist", "atom", "atomiswave", "bbcmicro", "bk", "bennugd", "c64",
  "camplynx", "cassettevision", "cave3rd", "cavestory", "cgenie", "channelf", "coco",
  "colecovision", "crvision", "ctvboy", "dice", "dos", "dragon64", "mc10", "dreamcast",
  "electron", "enterprise", "fbneo", "fds", "fm7", "gaelco", "gamate", "gameandwatch", "gamecom",
  "gamegear", "gamepock", "gb", "gb2players", "gba", "gbc", "gbc2players", "gmaster", "gong",
  "gp32", "gx4000", "intellivision", "jaguar", "jaguarcd", "laser310", "lcdgames", "loopy",
  "lowresnx", "lutro", "lynx", "macintosh", "mame", "mastersystem", "megadrive", "megadrive-msu",
  "megaduck", "mrboom", "msx1", "msx2", "msx2+", "msxturbor", "mz2000", "mz2500", "mz700",
  "mz800", "mz80k", "multivision", "n64", "n64dd", "namco22", "naomi", "naomi2", "nds", "neogeo",
  "neogeocd", "nes", "ngp", "ngpc", "odyssey2", "oricatmos", "pc60", "pc88", "pc98", "pcengine",
  "pcenginecd", "pcfx", "pdp1", "pico", "pico8", "pokemini", "prboom", "psx", "pv1000", "pv2000",
  "pc80", "quake", "reminiscence", "rx78", "satellaview", "saturn", "scv", "sega32x", "megacd",
  "sc3000", "segaai", "beena", "sg1000", "sgb", "sgb-msu1", "socrates", "spectravideo",
  "superbroswar", "sufami", "supracan", "snes", "snes-msu1", "supergrafx", "supervision",
  "sv8000", "systemsp", "thomson", "ti99", "tic80", "trs80", "tutor", "tvc", "tvgames", "uzebox",
  "vc4000", "vectrex", "vgmplay", "videopacplus", "vircon32", "virtualboy", "vis", "vsmile",
  "wasm4", "wswan", "wswanc", "x1", "x68000", "xegs", "xrick", "zc210", "zx81", "zxspectrum"]

/-- `_SPECIAL_ROOT_SYSTEMS`. -/
def specialRootSystems : List String := ["mame", "n64", "n64dd", "nds"]

/-- `_COMPLETE_RETROARCH_CLASSIC_SYSTEMS`. -/
def completeRetroarchClassicSystems : List String := [
  "atari2600", "atari5200", "atari7800", "colecovision", "fds", "gamegear", "gb", "gb2players",
  "gba", "gbc", "gbc2players", "intellivision", "jaguar", "jaguarcd", "lynx", "mastersystem",
  "megacd", "megadrive", "megadrive-msu", "neogeo", "neogeocd", "nes", "ngp", "ngpc", "odyssey2",
  "pcengine", "pcenginecd", "psx", "satellaview", "sega32x", "sg1000", "sgb", "sgb-msu1", "snes",
  "snes-msu1", "sufami", "supergrafx", "supervision", "vectrex", "virtualboy", "wswan", "wswanc"]

/-- The root layout of a system that RetroArch keeps in its own directory. -/
def retroarchRoot (system : String) : SaveLayout where
  layoutId := "retroarch-root-" ++ system
  system := system
  recursive := completeRetroarchClassicSystems.contains system
  eligibleFiles :=
    if completeRetroarchClassicSystems.contains system then ["*"] else ["*.srm", "*.state*"]

def retroarchLayouts : List SaveLayout :=
  ((retroarchSrmSystems.filter fun system => !specialRootSystems.contains system).insertionSort
    (· ≤ ·)).map retroarchRoot

/-! ### Other layouts -/

/-- `_DOLPHIN_GC_MEMORY_CARD_FILES`. -/
def dolphinGcMemoryCardFiles : List String :=
  ["A", "B"].flatMap fun slot => ["EUR", "USA", "JAP", "JPN"].flatMap fun region =>
    ("MemoryCard" ++ slot ++ "." ++ region ++ ".raw") ::
      ["59", "123", "251", "507", "1019"].map fun blocks =>
        "MemoryCard" ++ slot ++ "." ++ region ++ "." ++ blocks ++ ".raw"

/-- The layouts after those of `retroarchLayouts`, in the order of the source. -/
def standaloneLayouts : List SaveLayout := [
  { layoutId := "n64-root", system := "n64",
    eligibleFiles := ["*.srm", "*.eep", "*.sra", "*.fla", "*.mpk", "*.sav", "*.state*", "*.st?",
      "*.st??"],
    groupBy := .n64Title },
  { layoutId := "n64dd-root", system := "n64dd",
    eligibleFiles := ["*.srm", "*.eep", "*.sra", "*.fla", "*.mpk", "*.sav", "*.ndr", "*.d6r",
      "*.ram", "*.state*", "*.st?", "*.st??"],
    groupBy := .n64Title },
  { layoutId := "nds-root", system := "nds",
    eligibleFiles := ["*.srm", "*.sav", "*.state*", "*.mln"] },
  { layoutId := "mame-root", system := "mame", eligibleFiles := ["*.srm", "*.state*"] },
  { layoutId := "mame-nvram", system := "mame", rootPattern := "nvram", recursive := true,
    groupBy := .firstDescendant },
  { layoutId := "mame-state", system := "mame", rootPattern := "state", recursive := true,
    groupBy := .firstDescendant },
  { layoutId := "duckstation-memory-cards", system := "duckstation", rootPattern := "memcards",
    recursive := true, exclusions := ["*_resume.sav"], shared := true, groupBy := .rootFile,
    containerAdapterId := "ps1-raw-memory-card", containerPolicyId := "ps1-commercial-namespace",
    containerKind := .file },
  { layoutId := "duckstation-root-sav", system := "duckstation", eligibleFiles := ["*.sav"],
    exclusions := ["*_resume.sav"] },
  { layoutId := "pcsx2-legacy-memory-cards", system := "pcsx2", eligibleFiles := ["Mcd*.ps2"],
    shared := true, groupBy := .rootFile, containerAdapterId := "pcsx2-monolithic-file-card",
    containerPolicyId := "opaque-only", containerKind := .file },
  { layoutId := "pcsx2-legacy-states", system := "pcsx2", rootPattern := "sstates",
    recursive := true, shared := true, groupBy := .layout },
  { layoutId := "pcsx2-memory-cards", system := "ps2", rootPattern := "pcsx2",
    eligibleFiles := ["Mcd*.ps2"], shared := true, groupBy := .rootFile,
    containerAdapterId := "pcsx2-monolithic-file-card", containerPolicyId := "opaque-only",
    containerKind := .file },
  { layoutId := "pcsx2-folder-memory-cards", system := "ps2",
    rootPattern := "pcsx2/{host_directory}", recursive := true, shared := true, groupBy := .root,
    containerAdapterId := "pcsx2-folder-memory-card",
    containerPolicyId := "pcsx2-folder-single-entry", containerKind := .directory },
  { layoutId := "pcsx2-states", system := "ps2", rootPattern := "pcsx2/sstates",
    recursive := true, shared := true, groupBy := .layout },
  { layoutId := "ppsspp-savedata", system := "ppsspp", rootPattern := "PSP/SAVEDATA",
    recursive := true, groupBy := .firstDescendant },
  { layoutId := "ppsspp-states", system := "ppsspp", rootPattern := "PPSSPP_STATE",
    recursive := true, groupBy := .rootStem },
  { layoutId := "rpcs3-savedata", system := "ps3",
    rootPattern := "rpcs3/dev_hdd0/home/{digits8}/savedata", recursive := true,
    groupBy := .firstDescendant },
  { layoutId := "rpcs3-trophies", system := "ps3",
    rootPattern := "rpcs3/dev_hdd0/home/{digits8}/trophy", recursive := true, shared := true,
    groupBy := .firstDescendant },
  { layoutId := "rpcs3-virtual-memory-cards", system := "ps3",
    rootPattern := "rpcs3/dev_hdd0/savedata/vmc", recursive := true, shared := true,
    groupBy := .layout },
  { layoutId := "rpcs3-savestates", system := "ps3", rootPattern := "{sony_title_id}",
    eligibleFiles := ["*.SAVESTAT*"], groupBy := .root },
  { layoutId := "xenia-content", system := "xbox360", recursive := true, shared := true,
    groupBy := .layout },
  { layoutId := "yuzu-account-title-save", system := "yuzu",
    rootPattern := "0000000000000000/{hex32}/{hex16}", recursive := true, groupBy := .root },
  { layoutId := "azahar-title-saves", system := "3ds",
    rootPattern := "azahar-emu/sdmc/Nintendo 3DS/{hex32}/{hex32}/title/{hex8}/{hex8}",
    recursive := true, eligibleFiles := ["data/*"], groupBy := .root },
  { layoutId := "cemu-title-saves", system := "wiiu", rootPattern := "usr/save/{hex8}/{hex8}",
    recursive := true, groupBy := .root },
  { layoutId := "vita3k-title-saves", system := "psvita",
    rootPattern := "ux0/user/00/savedata/{sony_title_id}", recursive := true, groupBy := .root },
  { layoutId := "flycast-vmu-cards", system := "dreamcast", rootPattern := "flycast",
    eligibleFiles := ["vmu_save_[A-D][1-2].bin", "*_vmu_save_[A-D][1-2].bin"], shared := true,
    groupBy := .rootFile },
  { layoutId := "ymir-per-game-backup-memory", system := "ymir", rootPattern := "backup/games",
    eligibleFiles := ["bup-int-*.bin", "bup-ext-*M-*.bin"], shared := true, groupBy := .rootFile },
  { layoutId := "ymir-save-states", system := "ymir", rootPattern := "{hex32}",
    eligibleFiles := ["*.savestate", "meta.txt"], groupBy := .root },
  { layoutId := "ymir-global-backup-memory", system := "ymir", rootPattern := "state",
    eligibleFiles := ["bup-int.bin"], shared := true, groupBy := .rootFile },
  { layoutId := "dolphin-gc-memory-card-images", system := "dolphin-emu", rootPattern := "GC",
    eligibleFiles := dolphinGcMemoryCardFiles, shared := true, groupBy := .rootStem },
  { layoutId := "dolphin-gc-gci-saves", system := "dolphin-emu",
    rootPattern := "GC/{dolphin_gc_region}/{dolphin_gc_card}", eligibleFiles := ["*.gci"],
    groupBy := .rootFile },
  { layoutId := "dolphin-wii-title-saves", system := "dolphin-emu",
    rootPattern := "Wii/title/{dolphin_wii_save_type}/{hex8}/data", recursive := true,
    groupBy := .root },
  { layoutId := "dolphin-save-states", system := "dolphin-emu", rootPattern := "StateSaves",
    eligibleFiles := ["*.s[0-9][0-9]", "*.s[0-9][0-9].dtm"], groupBy := .dolphinState },
  { layoutId := "xemu-hdd", system := "xbox", eligibleFiles := ["xbox_hdd.qcow2"], shared := true,
    groupBy := .layout, requiresOptIn := true }]

/-- `_LAYOUTS`. -/
def layouts : List SaveLayout := retroarchLayouts ++ standaloneLayouts

end RomCloud.Selection
