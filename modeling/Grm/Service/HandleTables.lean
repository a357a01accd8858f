import Grm.Runtime.WorkspaceFiles
import Grm.Service.InProcess

/-!
# The handle tables of a service

Every handle has a live workspace and every live workspace a handle. A path of the live
ones names the workspace that keeps its files there, and there is one. Registering a
workspace, sharing it, replacing it and closing a handle on it keep this.
-/

set_option autoImplicit false

open Service

/-- The invariant of the tables. -/
structure InProcessWorkspaceService.Consistent (s : InProcessWorkspaceService) : Prop where
  live : ∀ (handle id : String), s.workspaceHandles[handle]? = some id → ∃ ws, s.workspaces[id]? = some ws
  held : ∀ (id : String) ws, s.workspaces[id]? = some ws → ∃ handle : String, s.workspaceHandles[handle]? = some id
  paths : ∀ (path id : String), s.liveWorkspacePaths[path]? = some id →
    ∃ ws, s.workspaces[id]? = some ws ∧ ws.path? = some path
  single : ∀ (id path : String) ws, s.workspaces[id]? = some ws → ws.path? = some path →
    s.liveWorkspacePaths[path]? = some id
  refs : ∀ handle : String, handle ∈ s.workspaceRefs ↔ handle ∈ s.workspaceHandles

namespace InProcessWorkspaceService
variable {s : InProcessWorkspaceService}

/-- The tables with a new workspace: one with files gets an entry for their path. -/
theorem Consistent.register (h : s.Consistent) {handle : WorkspaceHandle} {ws : Workspace} (ref : Option WorkspaceRef)
    (freshHandle : handle.id ∉ s.workspaceHandles) (freshId : handle.id ∉ s.workspaces) {paths : BTreeMap String String}
    (entries : ∀ path : String, paths[path]? = if ws.path? = some path then some handle.id else s.liveWorkspacePaths[path]?)
    (free : ∀ path, ws.path? = some path → path ∉ s.liveWorkspacePaths) :
    ({ s.register handle ws ref with liveWorkspacePaths := paths } : InProcessWorkspaceService).Consistent where
  live := by
    intro key id mapped
    show ∃ found, (s.workspaces.insert handle.id ws)[id]? = some found
    rw [InProcessWorkspaceService.register, BTreeMap.get_insert] at mapped
    rw [BTreeMap.get_insert]
    split at mapped
    · cases mapped
      exact ⟨ws, if_pos rfl⟩
    · obtain ⟨found, there⟩ := h.live key id mapped
      have other : handle.id ≠ id := by
        rintro rfl
        exact freshId (BTreeMap.mem_iff_get.2 ⟨found, there⟩)
      exact ⟨found, by rw [if_neg other]; exact there⟩
  held := by
    intro id found there
    show ∃ key : String, (s.workspaceHandles.insert handle.id handle.id)[key]? = some id
    rw [InProcessWorkspaceService.register, BTreeMap.get_insert] at there
    by_cases same : handle.id = id
    · exact ⟨handle.id, by rw [BTreeMap.get_insert_self, same]⟩
    · rw [if_neg same] at there
      obtain ⟨key, mapped⟩ := h.held id found there
      have other : handle.id ≠ key := by
        rintro rfl
        exact freshHandle (BTreeMap.mem_iff_get.2 ⟨id, mapped⟩)
      exact ⟨key, by rw [BTreeMap.get_insert_ne _ _ other]; exact mapped⟩
  paths := by
    intro path id named
    show ∃ found, (s.workspaces.insert handle.id ws)[id]? = some found ∧ found.path? = some path
    have named : paths[path]? = some id := named
    rw [entries] at named
    split at named
    · next located =>
      cases named
      exact ⟨ws, BTreeMap.get_insert_self .., located⟩
    · obtain ⟨found, there, located⟩ := h.paths path id named
      have other : handle.id ≠ id := by
        rintro rfl
        exact freshId (BTreeMap.mem_iff_get.2 ⟨found, there⟩)
      exact ⟨found, by rw [BTreeMap.get_insert_ne _ _ other]; exact there, located⟩
  single := by
    intro id path found there located
    show paths[path]? = some id
    have there : (s.workspaces.insert handle.id ws)[id]? = some found := there
    rw [entries]
    by_cases same : handle.id = id
    · subst same
      rw [BTreeMap.get_insert_self] at there
      cases there
      rw [if_pos located]
    · rw [BTreeMap.get_insert_ne _ _ same] at there
      have named := h.single id path found there located
      have other : ws.path? ≠ some path := fun taken => free path taken (BTreeMap.mem_iff_get.2 ⟨id, named⟩)
      rw [if_neg other]
      exact named
  refs := by
    intro key
    show key ∈ s.workspaceRefs.insert handle.id ref ↔ key ∈ s.workspaceHandles.insert handle.id handle.id
    rw [BTreeMap.mem_insert, BTreeMap.mem_insert, h.refs]

/-- One more handle on a live workspace. -/
theorem Consistent.share (h : s.Consistent) {handle : WorkspaceHandle} {id : String} {ws : Workspace}
    {ref : Option WorkspaceRef} (fresh : handle.id ∉ s.workspaceHandles) (there : s.workspaces[id]? = some ws) :
    ({ s with
      workspaceHandles := s.workspaceHandles.insert handle.id id
      workspaceRefs := s.workspaceRefs.insert handle.id ref } : InProcessWorkspaceService).Consistent where
  live := by
    intro key other mapped
    rw [BTreeMap.get_insert] at mapped
    split at mapped
    · cases mapped
      exact ⟨ws, there⟩
    · exact h.live key other mapped
  held := by
    intro other found listed
    obtain ⟨key, mapped⟩ := h.held other found listed
    have distinct : handle.id ≠ key := by
      rintro rfl
      exact fresh (BTreeMap.mem_iff_get.2 ⟨other, mapped⟩)
    exact ⟨key, by rw [BTreeMap.get_insert_ne _ _ distinct]; exact mapped⟩
  paths := h.paths
  single := h.single
  refs := by
    intro key
    rw [BTreeMap.mem_insert, BTreeMap.mem_insert, h.refs]

/-- A workspace replaced by one with the same path. -/
theorem Consistent.replace (h : s.Consistent) {id : String} {ws ws' : Workspace} (there : s.workspaces[id]? = some ws)
    (unmoved : ws'.path? = ws.path?) :
    ({ s with workspaces := s.workspaces.insert id ws' } : InProcessWorkspaceService).Consistent where
  live := by
    intro handle other mapped
    obtain ⟨found, listed⟩ := h.live handle other mapped
    rw [BTreeMap.get_insert]
    split
    · exact ⟨ws', rfl⟩
    · exact ⟨found, listed⟩
  held := by
    intro other found listed
    rw [BTreeMap.get_insert] at listed
    split at listed
    · next same =>
      subst same
      exact h.held id ws there
    · exact h.held other found listed
  paths := by
    intro path other named
    obtain ⟨found, listed, located⟩ := h.paths path other named
    rw [BTreeMap.get_insert]
    split
    · next same =>
      subst same
      cases there.symm.trans listed
      exact ⟨ws', rfl, unmoved.trans located⟩
    · exact ⟨found, listed, located⟩
  single := by
    intro other path found listed located
    rw [BTreeMap.get_insert] at listed
    split at listed
    · next same =>
      subst same
      cases listed
      exact h.single id path ws there (unmoved.symm.trans located)
    · exact h.single other path found listed located
  refs := h.refs

theorem get_otherPaths (id path : String) (paths : BTreeMap String String) :
    (otherPaths id paths)[path]? = paths[path]?.filter fun named => named != id :=
  Std.ExtTreeMap.getElem?_filter'

/-- Closing a handle keeps a workspace that has another one, and drops one that has none. -/
theorem Consistent.close (h : s.Consistent) (handle : WorkspaceHandle) :
    (s.closeWorkspace handle).1.Consistent := by
  unfold closeWorkspace
  cases mapped : s.workspaceHandles[handle.id]? with
  | none => exact h
  | some id =>
    dsimp only
    have refs : ∀ key : String, key ∈ s.workspaceRefs.erase handle.id ↔ key ∈ s.workspaceHandles.erase handle.id := by
      intro key
      rw [BTreeMap.mem_erase, BTreeMap.mem_erase, h.refs]
    have others : ∀ key other : String, (s.workspaceHandles.erase handle.id)[key]? = some other →
        s.workspaceHandles[key]? = some other := by
      intro key other kept
      rw [BTreeMap.get_erase] at kept
      split at kept
      · cases kept
      · exact kept
    split
    · next shared =>
      obtain ⟨other, listed, same⟩ := List.any_eq_true.1 shared
      cases eq_of_beq same
      obtain ⟨key, kept⟩ := BTreeMap.mem_vals.1 listed
      refine ⟨fun key other mapped => h.live key other (others key other mapped), ?_, h.paths, h.single, refs⟩
      intro other found there
      by_cases closed : other = id
      · subst closed
        exact ⟨key, kept⟩
      · obtain ⟨key, mapped'⟩ := h.held other found there
        have distinct : handle.id ≠ key := by
          rintro rfl
          exact closed (Option.some.inj (mapped'.symm.trans mapped))
        exact ⟨key, by rw [BTreeMap.get_erase_ne _ distinct]; exact mapped'⟩
    · next alone =>
      have unnamed : ∀ key : String, (s.workspaceHandles.erase handle.id)[key]? ≠ some id := by
        intro key kept
        exact alone (List.any_eq_true.2 ⟨id, BTreeMap.mem_vals.2 ⟨key, kept⟩, beq_self_eq_true id⟩)
      refine ⟨?_, ?_, ?_, ?_, refs⟩
      · intro key other kept
        have distinct : id ≠ other := by
          rintro rfl
          exact unnamed key kept
        obtain ⟨found, there⟩ := h.live key other (others key other kept)
        exact ⟨found, by rw [BTreeMap.get_erase_ne _ distinct]; exact there⟩
      · intro other found there
        rw [BTreeMap.get_erase] at there
        split at there
        · cases there
        · next distinct =>
          obtain ⟨key, mapped'⟩ := h.held other found there
          have kept : handle.id ≠ key := by
            rintro rfl
            exact distinct (Option.some.inj (mapped.symm.trans mapped'))
          exact ⟨key, by rw [BTreeMap.get_erase_ne _ kept]; exact mapped'⟩
      · intro path other named
        rw [get_otherPaths, Option.filter_eq_some_iff] at named
        obtain ⟨named, kept⟩ := named
        obtain ⟨found, there, located⟩ := h.paths path other named
        have distinct : id ≠ other := fun same => (bne_iff_ne.1 kept) same.symm
        exact ⟨found, by rw [BTreeMap.get_erase_ne _ distinct]; exact there, located⟩
      · intro other path found there located
        rw [BTreeMap.get_erase] at there
        split at there
        · cases there
        · next distinct =>
          rw [get_otherPaths, Option.filter_eq_some_iff]
          exact ⟨h.single other path found there located, bne_iff_ne.2 fun same => distinct same.symm⟩

end InProcessWorkspaceService
