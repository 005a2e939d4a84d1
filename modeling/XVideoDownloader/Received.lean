import XVideoDownloader.RequestFile
import XVideoDownloader.Lib.UnixPath

/-!
# Where a received file is written

A device reports the path of its file, the server sends on what `file_name` makes of it, with the empty name for a path
that has none, and the receiver joins that to its download directory without a look at it. So a file name stays in the
directory, whoever chose it, and for a path such as `/` or `..` the download is written over the directory itself
(`received_iff`).
-/

namespace XVideoDownloader
open Lib

/-- Where `start_file_handler` writes the file that a message announces. A path is bytes, and the directory any. -/
def outputPath (downloadDir : List UInt8) : ServerMessage → Option (List UInt8)
  | .fileAvailable _ _ _ _ filename _ => some (UnixPath.join downloadDir (utf8 filename))
  | _ => none

/-- The path has a last component and that is not `..`. -/
def HasFileName (path : String) : Prop :=
  ∃ c, ((path.toList.splitOn '/').filter fun c => c ≠ [] && c ≠ ['.']).getLast? = some c ∧ c ≠ ['.', '.']

/-- The pieces that count are the same in the text model and in the library. -/
theorem pieces_eq (path : String) : (path.toList.splitOn PathUnit.slash).filter UnixPath.counts =
    (path.toList.splitOn '/').filter fun c => c ≠ [] && c ≠ ['.'] := rfl

theorem toList_of_fileName {path : String} :
    (Text.fileName path).map String.toList = UnixPath.fileName path.toList := by
  rw [Text.fileName, UnixPath.fileName, pieces_eq]
  rcases ((path.toList.splitOn '/').filter fun c => c ≠ [] && c ≠ ['.']).getLast? with _ | c
  · rfl
  · by_cases hc : c = ['.', '.']
    · simp [hc, PathUnit.dot]
    · simp [hc, PathUnit.dot]

theorem hasFileName_iff {path : String} : HasFileName path ↔ UnixPath.fileName path.toList ≠ none := by
  rw [HasFileName, UnixPath.fileName, pieces_eq]
  rcases ((path.toList.splitOn '/').filter fun c => c ≠ [] && c ≠ ['.']).getLast? with _ | c
  · simp
  · simp [PathUnit.dot]

/-- The file whose path was reported is written into the directory if and only if the path has a file name. -/
theorem child_outputPath_iff (downloadDir : List UInt8) (path : String) :
    UnixPath.Child downloadDir (UnixPath.join downloadDir (utf8 ((Text.fileName path).getD ""))) ↔
      HasFileName path := by
  rw [hasFileName_iff, ← toList_of_fileName]
  rcases h : Text.fileName path with _ | name
  · exact iff_of_false (UnixPath.not_child_join_nil downloadDir) (by simp)
  · have hfile : UnixPath.fileName path.toList = some name.toList := by
      rw [← toList_of_fileName, h, Option.map_some]
    have hname : UnixPath.Named name.toList := UnixPath.named_of_fileName hfile
    exact iff_of_true (UnixPath.child_join downloadDir hname.utf8) (by simp)

namespace Server
variable [DefaultHasher] [AuthDeps]

/-- In every state that jobs handled one at a time reach from an empty database: what is sent about a complete task is
written as a direct child of the receiver's download directory if and only if the path that was reported for it has a
file name. -/
theorem received_iff (foreignKeys : Bool) (xs : List (Job × Stream' Env)) (key : SessionKey) (session : Session)
    (hs : ((Server.new foreignKeys).handleAll xs).session key = some session) (r : Task)
    (hr : r ∈ ((Server.new foreignKeys).handleAll xs).tasks) (hteam : r.teamId = session.teamId)
    (hst : r.status = .complete) (ω : Stream' Env) (hω : (ω.get 1).fail = none) (downloadDir : List UInt8) :
    ∃ c ∈ (Server.new foreignKeys).completed r.id none xs,
      (∀ p ∈ ((Server.new foreignKeys).handleAll xs).posted (.text key (.requestFile r.id), ω),
        ∀ output ∈ outputPath downloadDir p.2, UnixPath.Child downloadDir output) ↔
      HasFileName c.localPath := by
  obtain ⟨c, hc, hposted⟩ := posted_of_complete foreignKeys xs key session hs r hr hteam hst ω hω
  refine ⟨c, hc, ?_⟩
  rw [hposted, ← child_outputPath_iff downloadDir]
  constructor
  · intro h
    -- the requesting session itself is answered
    exact h (session, _) (mem_addressed.2 ⟨(session_eq_some.1 hs).1, decide_eq_true rfl, rfl⟩) _ rfl
  · intro h p hp output houtput
    rw [(mem_addressed.1 hp).2.2] at houtput
    cases houtput
    exact h

end Server

namespace Sample

/-- The task is completed with a path that is the root. -/
def rootFile : List (Job × Stream' Env) := oneClaim ++ [(.text 101 (.taskComplete 7 "/" 9), always 0 "" 1000)]

theorem not_received_rootFile :
    ((Server.new true).handleAll rootFile).posted (.text 101 (.requestFile 7), always 0 "" 1000) =
        [(⟨101, 1, 10⟩, .fileAvailable 7 1 "0.0.0.0" 0 "" 9)] ∧
      outputPath (utf8 "/downloads") (.fileAvailable 7 1 "0.0.0.0" 0 "" 9) = some (utf8 "/downloads/") ∧
      ¬ UnixPath.Child (utf8 "/downloads") (utf8 "/downloads/") := by
  have hroot : (Server.new true).handleAll rootFile = connected.handleAll rootFile.tail := handleAll_connect _
  refine ⟨by rw [hroot]; decide +kernel, by decide, ?_⟩
  exact UnixPath.not_child_join_nil (utf8 "/downloads")

theorem received_iff_oneFile : ∃ r ∈ ((Server.new true).handleAll oneFile).tasks,
    ∃ c ∈ (Server.new true).completed r.id none oneFile,
      (∀ p ∈ ((Server.new true).handleAll oneFile).posted (.text 101 (.requestFile r.id), always 0 "" 1000),
        ∀ output ∈ outputPath (utf8 "/downloads") p.2, UnixPath.Child (utf8 "/downloads") output) ↔
      HasFileName c.localPath := by
  have hfile : (Server.new true).handleAll oneFile = connected.handleAll oneFile.tail := handleAll_connect _
  have hsession : ((Server.new true).handleAll oneFile).session 101 = some ⟨101, 1, 10⟩ := by
    rw [hfile]
    decide +kernel
  obtain ⟨r, hr, hteam, hst⟩ :
      ∃ r ∈ ((Server.new true).handleAll oneFile).tasks, r.teamId = 10 ∧ r.status = .complete := by
    rw [hfile]
    decide +kernel
  exact ⟨r, hr, Server.received_iff true oneFile 101 _ hsession r hr hteam hst (always 0 "" 1000) rfl _⟩

end Sample

end XVideoDownloader
