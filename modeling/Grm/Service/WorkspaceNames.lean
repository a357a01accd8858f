import Mathlib.Order.Bounds.Basic
import Mathlib.Data.Set.Finite.Lattice
import Grm.Service.HandleCalls

/-!
# Names for new workspaces

There are finitely many files, and each number makes another name, so looking for a free
name ends.
-/

set_option autoImplicit false

open Service

namespace Service

theorem joinPath_injective (root : String) : Function.Injective (joinPath root) := by
  intro name name' same
  unfold joinPath at same
  split at same
  · exact (String.append_right_inj root).1 same
  · exact (String.append_right_inj (root ++ "/")).1 same

/-- The numbers of the names are in the paths of their files. -/
theorem workspaceFile_injective (root extension : String) :
    Function.Injective fun n : Nat => joinPath root (("workspace-" ++ toString n) ++ "." ++ extension) := by
  intro m n same
  have names : ("workspace-" ++ toString m) ++ "." ++ extension = ("workspace-" ++ toString n) ++ "." ++ extension :=
    joinPath_injective root same
  have numbers := (String.append_left_inj ".").1 ((String.append_left_inj extension).1 names)
  have digits : Nat.toDigits 10 m = Nat.toDigits 10 n := by
    have texts := congrArg String.toList ((String.append_right_inj "workspace-").1 numbers)
    rwa [Nat.toString_eq_repr, Nat.toString_eq_repr, Nat.toList_repr, Nat.toList_repr] at texts
  have values := congrArg Text.digitsValue digits
  rwa [Text.digitsValue_toDigits, Text.digitsValue_toDigits] at values

end Service

namespace InProcessWorkspaceService
variable {s : InProcessWorkspaceService} {disks : Disks} {inspect : String → Option String}

theorem anyExists_true {workspace : WorkspaceRef} {files : List (String × Bool)}
    (present : anyExists workspace inspect files = .ok true) : ∃ file ∈ files, file.2 = true := by
  induction files with
  | nil => cases present
  | cons file files ih =>
    obtain ⟨path, there⟩ := file
    unfold anyExists at present
    split at present
    · cases present
    · cases there with
      | true => exact ⟨_, List.mem_cons_self, rfl⟩
      | false =>
        obtain ⟨other, listed, found⟩ := ih present
        exact ⟨other, List.mem_cons_of_mem _ listed, found⟩

theorem artifacts_present {workspace : WorkspaceRef} {path : String}
    (present : anyExists workspace inspect (artifacts path (disks.at path)) = .ok true) : path ∈ disks := by
  obtain ⟨file, listed, there⟩ := anyExists_true present
  rw [BTreeMap.mem_iff_get]
  cases stored : disks[path]? with
  | some disk => exact ⟨disk, rfl⟩
  | none =>
    have empty : disks.at path = ⟨none, none, none⟩ := by
      unfold Disks.at
      rw [stored]
      rfl
    rw [empty] at listed
    rcases List.mem_cons.1 listed with rfl | listed
    · cases there
    · rcases List.mem_cons.1 listed with rfl | listed
      · cases there
      · cases List.mem_singleton.1 listed
        cases there

/-- A name that is taken has files in one of the formats. -/
theorem localWorkspaceExists_true {workspace : WorkspaceRef}
    (present : s.localWorkspaceExists disks inspect workspace = .ok true) :
    ∃ root format, s.localWorkspaceRoot = some root ∧
      joinPath root (workspace.id ++ "." ++ workspaceExtension format) ∈ disks := by
  have located : ∀ {format path}, s.localWorkspacePath workspace format = .ok path →
      ∃ root, s.localWorkspaceRoot = some root ∧ path = joinPath root (workspace.id ++ "." ++ workspaceExtension format) := by
    intro format path ok
    unfold localWorkspacePath at ok
    cases valid : validateWorkspaceRef workspace with
    | error e => rw [valid] at ok; cases ok
    | ok _ =>
      rw [valid] at ok
      cases root : s.localWorkspaceRoot with
      | none => rw [root] at ok; cases ok
      | some root' => rw [root] at ok; cases ok; exact ⟨root', rfl, rfl⟩
  obtain ⟨binary, binaryAt, ⟨first, -⟩ | ⟨-, json, jsonAt, second⟩⟩ := localWorkspaceExists_ok present
  · obtain ⟨root, rooted, same⟩ := located binaryAt
    exact ⟨root, .binary, rooted, same ▸ artifacts_present first⟩
  · obtain ⟨root, rooted, same⟩ := located jsonAt
    exact ⟨root, .json, rooted, same ▸ artifacts_present second⟩

/-- The numbers of the names that are taken are bounded. -/
theorem taken_bounded (s : InProcessWorkspaceService) (disks : Disks) (inspect : String → Option String) :
    ∃ bound : Nat, ∀ n : Nat, bound < n →
      s.localWorkspaceExists disks inspect ⟨"workspace-" ++ toString n⟩ ≠ .ok true := by
  cases rooted : s.localWorkspaceRoot with
  | none =>
    refine ⟨0, fun n _ present => ?_⟩
    obtain ⟨root, -, some_, -⟩ := localWorkspaceExists_true present
    cases rooted.symm.trans some_
  | some root =>
    let file (format : DurabilityFormat) (n : Nat) := joinPath root (("workspace-" ++ toString n) ++ "." ++ workspaceExtension format)
    have finite : ∀ format, (Set.preimage (file format) {path | path ∈ disks}).Finite := by
      intro format
      refine Set.Finite.preimage (workspaceFile_injective root _).injOn ((disks.toList.map Prod.fst).finite_toSet.subset ?_)
      intro path stored
      obtain ⟨disk, found⟩ := BTreeMap.mem_iff_get.1 stored
      exact List.mem_map.2 ⟨(path, disk), Std.ExtTreeMap.mem_toList_iff_getElem?_eq_some.2 found, rfl⟩
    obtain ⟨bound, bounds⟩ := ((finite .json).union (finite .binary)).bddAbove
    refine ⟨bound, fun n above present => ?_⟩
    obtain ⟨root', format, rooted', stored⟩ := localWorkspaceExists_true present
    cases rooted.symm.trans rooted'
    refine absurd (bounds (?_ : n ∈ _)) (Nat.not_le.2 above)
    cases format with
    | json => exact .inl stored
    | binary => exact .inr stored

/-- Looking for a name ends. -/
theorem nextAvailableWorkspaceRef_returns (s : InProcessWorkspaceService) (disks : Disks)
    (inspect : String → Option String) : ∃ tries, (nextAvailableWorkspaceRef disks inspect tries s).isSome = true := by
  obtain ⟨bound, free⟩ := taken_bounded s disks inspect
  obtain ⟨left, enough⟩ : ∃ left, bound ≤ s.nextWorkspaceRefId + left := ⟨bound, Nat.le_add_left ..⟩
  refine ⟨left + 1, ?_⟩
  induction left generalizing s with
  | zero =>
    unfold nextAvailableWorkspaceRef nextWorkspaceRef
    dsimp only
    split
    · rfl
    · rfl
    · next present => exact absurd present (free _ (by omega))
  | succ left ih =>
    unfold nextAvailableWorkspaceRef nextWorkspaceRef
    dsimp only
    split
    · rfl
    · rfl
    · exact ih { s with nextWorkspaceRefId := s.nextWorkspaceRefId + 1 } free (by dsimp only; omega)

/-- A workspace is created or refused. -/
theorem createWorkspace_returns [Codecs] (s : InProcessWorkspaceService) (disks : Disks)
    (request : WorkspaceCreateRequest) (random : Option (List UInt8)) (inspect : String → Option String)
    (fault : Option SaveStep) :
    ∃ tries, (s.createWorkspace disks request random inspect fault tries).isSome = true := by
  unfold createWorkspace
  cases request.mode with
  | inMemory =>
    refine ⟨0, ?_⟩
    dsimp only
    split <;> rfl
  | localAutocommit =>
    dsimp only
    cases request.workspace with
    | some workspace => exact ⟨0, rfl⟩
    | none =>
      obtain ⟨tries, returns⟩ := nextAvailableWorkspaceRef_returns s disks inspect
      exact ⟨tries, by rw [Option.isSome_map]; exact returns⟩

end InProcessWorkspaceService
