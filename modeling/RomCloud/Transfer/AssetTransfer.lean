import RomCloud.Transfer.FileTransfer

namespace RomCloud.Transfer

open RomCloud.Lib RomCloud.Cache

/-!
# The transfer of the assets of a game

`_transfer_in_session` as a program: every asset is planned, found at its final place or staged, all
of them are validated, and the staged ones are promoted.

* `transferDirectory` — the staged copy of a package;
* `validatedFinalSize` — whether the final copy can stay;
* `stageAsset`, `validateAsset`, `promoteAsset` — the three passes over an asset;
* `transferGame` — the run, which returns the asset to launch.
-/

section Program

variable {δ μ : Type} [DecidableEq δ] [DecidableEq μ] (sha256 : Content → δ)
  (manifestSha256 : List ManifestItem → μ) (source : Source)

/-! ### Packages -/

/-- `len(path.parts)`. -/
def depth (name : String) : ℕ := (posixParts name).length

/-- What a package may hold while it is staged: its files, and their `.part` files. -/
def AssetPlan.expectedFiles (plan : AssetPlan) : List String :=
  plan.files.map PlannedFile.packageRelativePath
    ++ plan.files.map (fun file => file.packageRelativePath ++ ".part")

/-- One turn of the loop that removes what is not of the package. -/
def removeStale (plan : AssetPlan) (name : String) : TransferProg (AssetStore δ μ) Unit :=
  look .fileSystem >>= fun s =>
  match s.node (.staged, name) with
  | some (.file _) =>
    if name ∈ plan.expectedFiles then pure ()
    else
      notify >>= fun _ => change .fileSystem .os (fun s => s.unlink (.staged, name))
  | some .directory =>
    if name ∈ plan.directories then pure ()
    else
      notify >>= fun _ => change .fileSystem .os (fun s => some (s.rmtree (.staged, name)))
  | _ => pure ()

/-- One file of a package. -/
def transferMember (file : PlannedFile) : TransferProg (AssetStore δ μ) Unit :=
  checkCancelled >>= fun _ =>
  makeDirectories (ancestors file.packageRelativePath) >>= fun _ =>
  transferFile sha256 source file

/-- A file in the place of the package is removed, and its directory made. -/
def openPackage : TransferProg (AssetStore δ μ) Unit :=
  look .fileSystem >>= fun s =>
  (if s.present .staged = true ∧ s.node (.staged, "") ≠ some .directory then
    notify >>= fun _ => change .fileSystem .os (fun s => s.unlink (.staged, ""))
  else pure ()) >>= fun _ =>
  change .fileSystem .os (fun s => s.mkdir (.staged, ""))

/-- `_transfer_directory`. -/
def transferDirectory (plan : AssetPlan) : TransferProg (AssetStore δ μ) Unit :=
  openPackage >>= fun _ =>
  look .fileSystem >>= fun s =>
  Prog.forEach (removeStale plan)
    ((namesBelow (s.tree .staged)).insertionSort fun a b => depth b ≤ depth a) >>= fun _ =>
  Prog.forEach (fun name => makeDirectories (ancestors name ++ [name])) plan.directories
    >>= fun _ =>
  Prog.forEach (transferMember sha256 source) plan.files

/-! ### Final copies -/

/-- The files of a final copy, each against the source. -/
def sourceHolds : List PlannedFile → TransferProg (AssetStore δ μ) Bool
  | [] => pure true
  | file :: rest =>
    look .fileSystem >>= fun s =>
    match s.node (.final, file.packageRelativePath) with
    | some (.file bytes) =>
      sourceMatches sha256 source file.relativePath bytes bytes.length >>= fun same =>
      if same then sourceHolds rest else pure false
    | _ => Prog.throw (.own .os)

/-- `_validated_final_size`. -/
def validatedFinalSize (plan : AssetPlan) : TransferProg (AssetStore δ μ) (Option ℕ) :=
  look .database >>= fun s =>
  if plan.recoveryEvidence then
    match s.promotedSize sha256 with
    | none => pure none
    | some size =>
      sourceHolds sha256 source plan.files >>= fun same => pure (if same then some size else none)
  else pure (validatedSize (s.tree .final) plan)

/-! ### The passes over an asset -/

/-- The plan of an asset, and whether its manifest was found. -/
def planWithEvidence (asset : GameAsset) : TransferProg (AssetStore δ μ) AssetPlan :=
  checkCancelled >>= fun _ =>
  Prog.step .source (fun s => (planAsset source asset).map (·, s)) >>= fun plan =>
  look .database >>= fun s =>
  pure { plan with recoveryEvidence := s.asset.isSome }

/-- The manifest that was found is reconciled with the plan. -/
def reconcilePlan (plan : AssetPlan) : TransferProg (AssetStore δ μ) Unit :=
  look .database >>= fun s =>
  match s.asset with
  | none => pure ()
  | some row =>
    (if row.sourceManifestSha256 ≠ manifestSha256 plan.manifest then
      change .database .os (fun s => some s.deleteAsset)
    else pure ()) >>= fun _ =>
    change .persistPlan .os (fun s => some (s.replacePlan manifestSha256 plan))

/-- The staged copy of an asset that is not at its final place. -/
def stageCopy (plan : AssetPlan) : TransferProg (AssetStore δ μ) Unit :=
  (if plan.recoveryEvidence then pure ()
  else change .database .os (fun s => some (s.replacePlan manifestSha256 plan))) >>= fun _ =>
  if plan.isDirectory then transferDirectory sha256 source plan
  else
    match plan.files.head? with
    | some file => transferFile sha256 source file
    | none => Prog.throw (.own .os)

/-- One turn of the first loop of `_transfer_in_session`. -/
def stageAsset (asset : GameAsset) : TransferProg (AssetStore δ μ) AssetPlan :=
  checkCancelled >>= fun _ =>
  planWithEvidence source asset >>= fun plan =>
  reconcilePlan manifestSha256 plan >>= fun _ =>
  validatedFinalSize sha256 source plan >>= fun size =>
  if size.isSome then
    checkCancelled >>= fun _ => notify >>= fun _ => checkCancelled >>= fun _ => pure plan
  else stageCopy sha256 manifestSha256 source plan >>= fun _ => pure plan

/-- One turn of `_validate`. -/
def validateAsset (plan : AssetPlan) : TransferProg (AssetStore δ μ) Unit :=
  validatedFinalSize sha256 source plan >>= fun size =>
  if size.isSome then pure ()
  else
    look .fileSystem >>= fun s =>
    if (validatedSize (s.tree .staged) plan).isSome then pure ()
    else Prog.throw (.own (.incomplete plan.asset.filename))

/-- `_remove_path`, of the parked copy. -/
def removeBackup : TransferProg (AssetStore δ μ) Unit :=
  look .fileSystem >>= fun s =>
  if s.present .backup then change .fileSystem .os (fun s => some (s.setTree .backup ∅))
  else pure ()

/-- `os.replace`, of a whole place. -/
def rename (place other : Place) : TransferProg (AssetStore δ μ) Unit :=
  change .fileSystem .os (fun s => s.rename place other)

/-- `_atomic_promote`: a directory cannot be renamed onto one, so the old final copy is parked. -/
def atomicPromote : TransferProg (AssetStore δ μ) Unit :=
  look .fileSystem >>= fun s =>
  if s.node (.staged, "") = some .directory ∧ s.present .final = true then
    removeBackup >>= fun _ =>
    rename .final .backup >>= fun _ =>
    Prog.tryCatch (rename .staged .final)
      (fun error =>
        look .fileSystem >>= fun s =>
        (if s.present .final = false ∧ s.present .backup = true then rename .backup .final
        else pure ()) >>= fun _ => Prog.throw error) >>= fun _ =>
    removeBackup
  else rename .staged .final >>= fun _ => removeBackup

/-- One turn of `_promote`. -/
def promoteAsset : TransferProg (AssetStore δ μ) Unit :=
  look .fileSystem >>= fun s =>
  if s.present .staged then notify >>= fun _ => atomicPromote
  else if s.present .final then removeBackup
  else pure ()

/-! ### The run -/

/-- What is kept of all assets. -/
abbrev Stores (δ μ : Type) := String → AssetStore δ μ

/-- The asset to launch: the last primary one, or the first. -/
def launchAsset (assets : List GameAsset) : Option String :=
  assets.foldl (fun found asset =>
    if asset.isPrimary || found.isNone then some asset.relativePath else found) none

/-- `_transfer_in_session`. -/
def transferGame (assets : List GameAsset) : TransferProg (Stores δ μ) (Option String) :=
  if assets = [] then Prog.throw (.own .noAssets)
  else
    checkCancelled >>= fun _ =>
    Prog.collect (fun asset =>
      Prog.part asset.relativePath (stageAsset sha256 manifestSha256 source asset)) assets
      >>= fun plans =>
    checkCancelled >>= fun _ =>
    Prog.forEach (fun plan =>
      Prog.part plan.asset.relativePath (validateAsset sha256 source plan)) plans >>= fun _ =>
    checkCancelled >>= fun _ =>
    Prog.forEach (fun asset => Prog.part asset.relativePath promoteAsset) assets >>= fun _ =>
    checkCancelled >>= fun _ => pure (launchAsset assets)

end Program

end RomCloud.Transfer
