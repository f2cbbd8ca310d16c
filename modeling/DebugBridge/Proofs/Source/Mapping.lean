import DebugBridge.Proofs.Source.Spelling

/-! A path of the client comes back from the engine as the file it names in the workspace, and a file of the engine
comes back from the client under its resolved name, wherever the root directory is. -/

set_option autoImplicit false

namespace DebugBridge.Source

def inWorkspace (workspace clientPath : String) : Path :=
  ((Path.ofString (slashed workspace)).join (Path.ofString (slashed clientPath))).normalize

/-- Whether a text names a place of its own and not one in some directory. -/
def IsAbsolute (text : String) : Prop := (Path.ofString (slashed text)).rooted = true

instance (text : String) : Decidable (IsAbsolute text) := inferInstanceAs (Decidable (_ = _))

/-- Whether a text names something that is within any directory it is looked for in. -/
structure IsBelow (text : String) : Prop where
  relative : ¬ IsAbsolute text
  down : (normalized text).components.head? ≠ some .parent

instance (text : String) : Decidable (IsBelow text) :=
  decidable_of_iff (¬ IsAbsolute text ∧ (normalized text).components.head? ≠ some .parent)
    ⟨fun both => ⟨both.1, both.2⟩, fun below => ⟨below.relative, below.down⟩⟩

theorem spelled_normalized (text : String) : (normalized text).Spelled :=
  Path.spelled_normalize (Path.spelled_slashed text)

theorem normalize_normalized (text : String) : (normalized text).normalize = normalized text :=
  Path.normalize_normalize _

theorem normalized_rooted (text : String) : (normalized text).rooted = (Path.ofString (slashed text)).rooted := by
  rw [normalized, Path.normalize_rooted]

theorem IsAbsolute.rooted {text : String} (absolute : IsAbsolute text) : (normalized text).rooted = true := by
  rw [normalized_rooted]
  exact absolute

theorem inWorkspace_eq (workspace clientPath : String) : inWorkspace workspace clientPath =
    ((normalized workspace).join (normalized clientPath)).normalize := by
  rw [normalized, normalized, Path.normalize_join_left, Path.normalize_join_right, inWorkspace]

theorem inWorkspace_rooted {workspace : String} (absolute : IsAbsolute workspace) (clientPath : String) :
    (inWorkspace workspace clientPath).rooted = true := by
  rw [inWorkspace_eq, Path.normalize_rooted]
  exact Path.join_rooted absolute.rooted _

theorem spelled_inWorkspace (workspace clientPath : String) : (inWorkspace workspace clientPath).Spelled :=
  Path.spelled_normalize (Path.spelled_join (Path.spelled_slashed workspace) (Path.spelled_slashed clientPath))

theorem inWorkspace_of_absolute {clientPath : String} (absolute : IsAbsolute clientPath) (workspace : String) :
    inWorkspace workspace clientPath = normalized clientPath := by
  rw [inWorkspace, Path.join_of_rooted _ absolute, normalized]

namespace Resolver

def directory (r : Resolver) : Path :=
  match r.root with
  | some root => r.workspace.join root
  | none => r.workspace

theorem toClient_eq (r : Resolver) (engineFile : String) :
    r.toClient engineFile = (r.directory.join (Path.ofString (slashed engineFile))).normalize := rfl

/-- A path that lies in the engine's directory is told from there. -/
theorem toEngine_within {r : Resolver} (rooted : r.workspace.rooted = true)
    (settled : r.workspace.normalize = r.workspace) {clientPath : String} {rest : List Component}
    (within : normalized clientPath = ⟨true, r.directory.normalize.components ++ rest⟩) :
    r.toEngine clientPath = (⟨false, rest⟩ : Path).text := by
  have resolved := normalize_normalized clientPath
  have absolute : (normalized clientPath).rooted = true := congrArg Path.rooted within
  have below := congrArg Path.components within
  unfold toEngine
  generalize normalized clientPath = path at resolved absolute below
  unfold directory at below
  cases named : r.root with
  | some dir =>
    rw [named] at below
    have base : (r.workspace.join dir).normalize.rooted = true := Path.join_rooted rooted dir
    simp only [Path.join_of_rooted _ absolute, resolved, Path.relativeTo_append absolute base below]
  | none =>
    rw [named, settled] at below
    simp only [Path.stripBase?_append absolute rooted below, Option.getD_some]

theorem workspace_new (workspace : String) (root : Option String) :
    (new workspace root).workspace = normalized workspace := rfl

theorem spelled_directory (workspace : String) (root : Option String) : (new workspace root).directory.Spelled := by
  have spelled := spelled_normalized workspace
  unfold directory new
  split
  · next dir named =>
    obtain ⟨text, -, rfl⟩ := Option.map_eq_some_iff.mp named
    exact Path.spelled_join spelled (spelled_normalized text)
  · exact spelled

section

variable {workspace : String} (absolute : IsAbsolute workspace) (root : Option String)
include absolute

theorem directory_rooted : (new workspace root).directory.rooted = true := by
  unfold directory
  rw [workspace_new]
  cases (new workspace root).root with
  | some dir => exact Path.join_rooted absolute.rooted dir
  | none => exact absolute.rooted

/-- What the engine is told leads from its directory to the file that was meant. -/
theorem toEngine_leads (clientPath : String) :
    ∃ path : Path, path.Spelled ∧ (new workspace root).toEngine clientPath = path.text ∧
      ((new workspace root).directory.join path).normalize = inWorkspace workspace clientPath := by
  have spelled := spelled_normalized clientPath
  have meant := (inWorkspace_eq workspace clientPath).symm
  have base := absolute.rooted
  unfold toEngine directory
  rw [workspace_new]
  generalize normalized workspace = ws at meant base
  cases (new workspace root).root with
  | some dir =>
    simp only [meant]
    refine ⟨_, Path.spelled_relativeTo (spelled_inWorkspace workspace clientPath), rfl, ?_⟩
    rw [← Path.normalize_join_left]
    exact Path.normalize_join_relativeTo (inWorkspace_rooted absolute clientPath) (Path.join_rooted base dir)
      (Path.normalize_normalize _) (Path.normalize_normalize _)
  | none =>
    simp only
    cases stripped : (normalized clientPath).stripBase? ws with
    | none => exact ⟨_, spelled, rfl, meant⟩
    | some rest =>
      obtain ⟨-, back⟩ := Path.stripBase?_eq_some base stripped
      refine ⟨rest, Path.spelled_stripBase? spelled stripped, rfl, ?_⟩
      have rooted : (normalized clientPath).rooted = true := back ▸ Path.join_rooted base rest
      rw [back, ← meant, Path.join_of_rooted ws rooted]

theorem toClient_toEngine (clientPath : String) :
    (new workspace root).toClient ((new workspace root).toEngine clientPath) = inWorkspace workspace clientPath := by
  obtain ⟨path, spelled, told, leads⟩ := toEngine_leads absolute root clientPath
  rw [toClient_eq, told, Path.slashed_text spelled, Path.ofString_text spelled.written, leads]

theorem toEngine_eq_iff {clientPath other : String} (named : IsAbsolute clientPath) (otherNamed : IsAbsolute other) :
    (new workspace root).toEngine clientPath = (new workspace root).toEngine other ↔
      normalized clientPath = normalized other := by
  constructor
  · intro same
    have back := congrArg (new workspace root).toClient same
    rwa [toClient_toEngine absolute, toClient_toEngine absolute, inWorkspace_of_absolute named,
      inWorkspace_of_absolute otherNamed] at back
  · intro same
    unfold toEngine
    rw [same]

/-- A file in the engine's directory comes back under the name that its dots resolve to. -/
theorem toEngine_toClient {file : String} (below : IsBelow file) :
    (new workspace root).toEngine ((new workspace root).toClient file).text = (normalized file).text := by
  have relative : (Path.ofString (slashed file)).rooted = false := Bool.eq_false_iff.mpr below.relative
  have rooted := directory_rooted absolute root
  have place : (new workspace root).toClient file =
      ⟨true, (new workspace root).directory.normalize.components ++ (normalized file).components⟩ := by
    rw [toClient_eq, ← Path.normalize_join_left]
    exact Path.normalize_join_names rooted (Path.normalize_normalize _) relative below.down
  have spelled : ((new workspace root).toClient file).Spelled :=
    Path.spelled_normalize (Path.spelled_join (spelled_directory workspace root) (Path.spelled_slashed file))
  have same : normalized ((new workspace root).toClient file).text = (new workspace root).toClient file := by
    rw [Path.normalized_text spelled]
    exact Path.normalize_normalize _
  have named : (normalized file).rooted = false := (normalized_rooted file).trans relative
  have base : (new workspace root).workspace.rooted = true := by
    rw [workspace_new]
    exact absolute.rooted
  have settled : (new workspace root).workspace.normalize = (new workspace root).workspace := by
    rw [workspace_new, normalize_normalized]
  exact (toEngine_within base settled (same.trans place)).trans (congrArg Path.text (Path.mk_components named))

end

end Resolver

end DebugBridge.Source
