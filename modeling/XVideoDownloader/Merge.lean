import XVideoDownloader.LocalQueue
import XVideoDownloader.Lib.FirstOf

/-!
# Merging the server's list into the queue

`sync_from_server` takes the new tasks out of the queue, replaces the queue by the server's list and pushes each of
them back unless its URL is there by then. The loop is `foldl_pushNew` at the URLs, so what it appends is the first
task of each URL that the server does not have (`merge_eq`), and merging the same list again appends the same
(`merge_merge`).
-/

namespace XVideoDownloader
open Lib
namespace LocalQueue

variable {q q' : LocalQueue} {server current : List LocalTask} {t : LocalTask}

/-- The new tasks whose URL the server does not have. -/
def unsent (server current : List LocalTask) : List LocalTask :=
  unknown LocalTask.url server (current.filter fun t => t.status = .new)

theorem mem_unsent : t ∈ unsent server current ↔ t ∈ current ∧ t.status = .new ∧ t.url ∉ server.map LocalTask.url := by
  rw [unsent, mem_unknown, List.mem_filter, decide_eq_true_eq, and_assoc]

theorem merge_eq (server current : List LocalTask) :
    merge server current = server ++ firstOf LocalTask.url (unsent server current) :=
  foldl_pushNew LocalTask.url (current.filter fun t => t.status = .new) server

theorem mem_firstOf_unsent (h : t ∈ firstOf LocalTask.url (unsent server current)) :
    t ∈ current ∧ t.status = .new ∧ t.url ∉ server.map LocalTask.url :=
  mem_unsent.1 ((firstOf_sublist _).subset h)

/-- The new tasks of the merged list are those of the server, whose URLs are known, and those that were kept. -/
theorem merge_merge (server current : List LocalTask) : merge server (merge server current) = merge server current := by
  have hnew : (merge server current).filter (fun t => t.status = .new) =
      server.filter (fun t => t.status = .new) ++ firstOf LocalTask.url (unsent server current) := by
    rw [merge_eq, List.filter_append]
    congr 1
    refine List.filter_eq_self.2 fun t ht => ?_
    simpa using (mem_firstOf_unsent ht).2.1
  have hknown : ∀ t ∈ server.filter (fun t => t.status = .new), t.url ∈ server.map LocalTask.url :=
    fun t ht => List.mem_map_of_mem (List.mem_filter.1 ht).1
  rw [merge, hnew]
  exact (foldl_pushNew_append hknown _).trans (merge_eq server current).symm

/-- `q'` is the server's list, and after it the unsent tasks of `q`. -/
structure Merged (server : List LocalTask) (q q' : LocalQueue) : Prop where
  tasks : q'.tasks = server ++ firstOf LocalTask.url (unsent server q.tasks)
  owner : q'.teamId = q.teamId ∧ q'.deviceId = q.deviceId
  /-- No URL of a new task is lost, and no new task but those whose URL is met before. -/
  kept : ∀ t ∈ q.tasks, t.status = .new →
    ∃ u ∈ q'.tasks, u.url = t.url ∧ (u ∈ server ∨ u ∈ q.tasks ∧ u.status = .new ∧ u.url ∉ server.map LocalTask.url)
  kept_self : Distinct q.tasks → ∀ t ∈ unsent server q.tasks, t ∈ q'.tasks
  received : ∀ t ∈ server, t ∈ q'.tasks
  /-- Where both have a URL, the server's task is the one that stays. -/
  server_wins : ∀ t ∈ q'.tasks, t.url ∈ server.map LocalTask.url → t ∈ server

theorem merged_merge (server : List LocalTask) (q : LocalQueue) :
    Merged server q { q with tasks := merge server q.tasks } where
  tasks := merge_eq server q.tasks
  owner := ⟨rfl, rfl⟩
  kept := by
    intro t ht hnew
    show ∃ u ∈ merge server q.tasks, _
    rw [merge_eq]
    by_cases hurl : t.url ∈ server.map LocalTask.url
    · obtain ⟨u, hu, hut⟩ := List.mem_map.1 hurl
      exact ⟨u, List.mem_append_left _ hu, hut, .inl hu⟩
    · obtain ⟨u, hu, hut⟩ := exists_mem_firstOf LocalTask.url (mem_unsent.2 ⟨ht, hnew, hurl⟩)
      exact ⟨u, List.mem_append_right _ hu, hut, .inr (mem_firstOf_unsent hu)⟩
  kept_self := by
    intro hd t ht
    have hdu : (unsent server q.tasks).Pairwise fun t u => t.url ≠ u.url :=
      List.Pairwise.sublist (List.filter_sublist.trans List.filter_sublist) hd
    show t ∈ merge server q.tasks
    rw [merge_eq, firstOf_eq_self hdu]
    exact List.mem_append_right _ ht
  received := by
    intro t ht
    show t ∈ merge server q.tasks
    rw [merge_eq]
    exact List.mem_append_left _ ht
  server_wins := by
    intro t ht hurl
    have ht : t ∈ merge server q.tasks := ht
    rw [merge_eq] at ht
    rcases List.mem_append.1 ht with ht | ht
    · exact ht
    · exact absurd hurl (mem_firstOf_unsent ht).2.2

variable [Codec (List LocalTask)] {io : Io} {file : Option String} {a : Option LocalTask}

/-- A synchronisation that succeeds merges the lists, and another one with the same list keeps the queue whether it
succeeds or not, and the file if it succeeds. -/
theorem syncFromServer_ok (h : ((Op.syncFromServer server).run io q file).1 = .ok a) :
    ∃ q' file', ((Op.syncFromServer server).run io q file).2 = (q', file') ∧ Merged server q q' ∧
      ∀ io', ((Op.syncFromServer server).run io' q' file').2.1 = q' ∧
        ∀ a', ((Op.syncFromServer server).run io' q' file').1 = .ok a' →
          ((Op.syncFromServer server).run io' q' file').2.2 = file' := by
  obtain ⟨q', json, hedit, hencode, hrun⟩ := Op.run_ok h
  cases hedit
  have hagain : Op.edit (.syncFromServer server) { q with tasks := merge server q.tasks } =
      .ok { q with tasks := merge server q.tasks } := by
    rw [Op.edit, merge_merge]
  refine ⟨_, _, hrun, merged_merge server q, fun io' => ⟨?_, fun a' h' => ?_⟩⟩
  · refine commit_invariant (J := fun p => p = _) rfl ?_
    intro p hp
    rw [hagain] at hp
    cases hp
    rfl
  · obtain ⟨p, json', hedit', hencode', hrun'⟩ := Op.run_ok h'
    rw [hagain] at hedit'
    cases hedit'
    rw [hencode] at hencode'
    cases hencode'
    rw [hrun']

end LocalQueue

namespace Sample
open LocalQueue

/-- The server's task for the URL of the first of three that were not sent; the other two have one URL. -/
def queuedTask : LocalTask := { LocalTask.new 5 0 "u" 10 2 with status := .queued }

def unsentTasks : List LocalTask := [newTask, .new 8 0 "v" 10 1, .new 9 0 "v" 10 1]

/-- What the file has for a task, from its id to its status, and behind its creator's id. -/
def mergedTaskText (id url status creator : String) : String :=
  "  \x7b\n    \"id\": \"00000000-0000-0000-0000-00000000000" ++ id ++ "\",\n" ++
  "    \"team_id\": \"00000000-0000-0000-0000-00000000000a\",\n    \"url\": \"" ++ url ++
  "\",\n    \"status\": \"" ++ status ++ "\",\n" ++
  "    \"claimed_by\": null,\n    \"claimed_at\": null,\n    \"progress\": 0.0,\n    \"local_path\": null,\n" ++
  "    \"file_size\": null,\n    \"created_by\": \"00000000-0000-0000-0000-00000000000" ++ creator ++ "\",\n" ++
  "    \"created_at\": \"1970-01-01T00:00:00Z\",\n    \"version\": 1\n  \x7d"

def mergedText : String :=
  "[\n" ++ mergedTaskText "5" "u" "Queued" "2" ++ ",\n" ++ mergedTaskText "8" "v" "New" "1" ++ "\n]"

abbrev mergeCodec : Codec (List LocalTask) where
  encode tasks := if tasks = [queuedTask, .new 8 0 "v" 10 1] then .ok mergedText else .error "another list"
  decode json := if json = mergedText then .ok [queuedTask, .new 8 0 "v" 10 1] else .error "another text"

/-- Of the two URLs of the queue one is the server's already, and the other has two tasks, of which the first stays. -/
theorem syncFromServer_ok_unsentTasks :
    ∃ q' file', (@Op.run mergeCodec (.syncFromServer [queuedTask]) working ⟨unsentTasks, 10, 1⟩ none).2 = (q', file') ∧
      q'.tasks = [queuedTask, .new 8 0 "v" 10 1] ∧ Merged [queuedTask] ⟨unsentTasks, 10, 1⟩ q' ∧
      ∀ io', (@Op.run mergeCodec (.syncFromServer [queuedTask]) io' q' file').2.1 = q' ∧
        ∀ a', (@Op.run mergeCodec (.syncFromServer [queuedTask]) io' q' file').1 = .ok a' →
          (@Op.run mergeCodec (.syncFromServer [queuedTask]) io' q' file').2.2 = file' := by
  have hok : (@Op.run mergeCodec (.syncFromServer [queuedTask]) working ⟨unsentTasks, 10, 1⟩ none).1 = .ok none := by
    rfl
  obtain ⟨q', file', hrun, hmerged, hagain⟩ := @syncFromServer_ok ⟨unsentTasks, 10, 1⟩ [queuedTask] mergeCodec working
    none none hok
  exact ⟨q', file', hrun, hmerged.tasks.trans (by decide), hmerged, hagain⟩

end Sample

end XVideoDownloader
