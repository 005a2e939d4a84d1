import XVideoDownloader.FileServer
import XVideoDownloader.Lib.Slices

/-!
# The read loop of the file server

A `ReadLoop` is the loop between two reads, with the capacity of its buffer. A read finds room for at least one byte
as long as the loop goes on (`Roomy.read`). The loop never looks at what it has read, so it goes on after the empty
line that ends a request: it is left when the client shuts its side down, or with an error at the limit
(`stops_at_end_iff`).
-/

namespace XVideoDownloader
open Lib

namespace FileServer

inductive ReadLoop
  | reading (buffer : Bytes) (capacity : Nat)
  | done (request : Bytes)
  | tooLarge
  deriving DecidableEq

/-- A buffer that is full is doubled, up to the limit. -/
def grow (totalRead capacity : Nat) : Nat :=
  if capacity ≤ totalRead ∧ capacity < maxRequestSize then min (capacity * 2) maxRequestSize else capacity

namespace ReadLoop

/-- The head of the loop. -/
def enter (buffer : Bytes) (capacity : Nat) : ReadLoop :=
  if maxRequestSize ≤ buffer.length then tooLarge else reading buffer capacity

def start : ReadLoop := enter [] 65536

def read : ReadLoop → Bytes → ReadLoop
  | reading buffer _, [] => done buffer
  | reading buffer capacity, b :: bs =>
    enter (buffer ++ b :: bs) (grow (buffer ++ b :: bs).length capacity)
  | loop, _ => loop

def after (reads : List Bytes) : ReadLoop := reads.foldl read start

/-- The loop has been left, with a request or with an error. -/
def Exited : ReadLoop → Prop
  | reading .. => False
  | _ => True

/-- What the loop comes to if the client now shuts its side down. -/
def answer : ReadLoop → Except String Bytes
  | reading buffer _ => .ok buffer
  | done request => .ok request
  | tooLarge => .error "请求过大，超过 10MB 限制"

variable {loop : ReadLoop} {buffer : Bytes} {capacity : Nat} {bytes : Bytes} {reads : List Bytes}

theorem foldl_read_of_exited (h : loop.Exited) (reads : List Bytes) : reads.foldl read loop = loop := by
  induction reads with
  | nil => rfl
  | cons bytes reads ih =>
    rcases loop with _ | _ | _
    · exact h.elim
    · exact ih
    · exact ih

theorem readRequest_of_le (h : maxRequestSize ≤ buffer.length) (reads : List Bytes) :
    readRequest reads buffer = .error "请求过大，超过 10MB 限制" := by
  rw [readRequest.eq_def]
  exact if_pos h

theorem foldl_read_of_le (h : maxRequestSize ≤ buffer.length) (reads : List Bytes) (capacity : Nat) :
    reads.foldl read (enter buffer capacity) = tooLarge := by
  rw [enter, if_pos h]
  exact foldl_read_of_exited (show tooLarge.Exited from trivial) reads

/-- The function that returns the request is this loop, for which the client at last shuts its side down. -/
theorem readRequest_eq_answer (reads : List Bytes) (buffer : Bytes) (capacity : Nat) :
    readRequest reads buffer = (reads.foldl read (enter buffer capacity)).answer := by
  induction reads generalizing buffer capacity with
  | nil =>
    by_cases hlen : maxRequestSize ≤ buffer.length
    · rw [readRequest_of_le hlen, foldl_read_of_le hlen, answer]
    · rw [readRequest, if_neg hlen, List.foldl_nil, enter, if_neg hlen, answer]
  | cons bytes reads ih =>
    by_cases hlen : maxRequestSize ≤ buffer.length
    · rw [readRequest_of_le hlen, foldl_read_of_le hlen, answer]
    · rw [List.foldl_cons, enter, if_neg hlen]
      rcases bytes with _ | ⟨b, bs⟩
      · rw [readRequest, if_neg hlen, read, foldl_read_of_exited (show (done buffer).Exited from trivial), answer]
      · rw [readRequest, if_neg hlen]
        · exact ih _ _
        · simp

/-! ### Room for a read -/

/-- As long as it goes on, the buffer is not full, and not beyond the limit. -/
def Roomy : ReadLoop → Prop
  | reading buffer capacity => buffer.length < capacity ∧ capacity ≤ maxRequestSize
  | _ => True

theorem roomy_enter (hle : buffer.length ≤ capacity) (hmax : capacity ≤ maxRequestSize) (hpos : 0 < capacity) :
    (enter buffer (grow buffer.length capacity)).Roomy := by
  unfold enter grow
  split
  · trivial
  · split
    · show buffer.length < min (capacity * 2) maxRequestSize ∧ min (capacity * 2) maxRequestSize ≤ maxRequestSize
      omega
    · show buffer.length < capacity ∧ capacity ≤ maxRequestSize
      omega

/-- The read delivers no more than there is room for. -/
def Fits : ReadLoop → Bytes → Prop
  | reading buffer capacity, bytes => bytes.length ≤ capacity - buffer.length
  | _, _ => True

theorem Roomy.read (h : loop.Roomy) (hfit : loop.Fits bytes) : (loop.read bytes).Roomy := by
  rcases loop with ⟨buffer, capacity⟩ | _ | _
  · rcases bytes with _ | ⟨b, bs⟩
    · trivial
    · have h : buffer.length < capacity ∧ capacity ≤ maxRequestSize := h
      have hfit : (b :: bs).length ≤ capacity - buffer.length := hfit
      refine roomy_enter ?_ h.2 (by omega)
      rw [List.length_append]
      omega
  · trivial
  · trivial

theorem roomy_after (hfits : ∀ before bytes rest, reads = before ++ bytes :: rest → (after before).Fits bytes) :
    ∀ before rest, reads = before ++ rest → (after before).Roomy := by
  have hstart : (after []).Roomy := by
    show 0 < 65536 ∧ 65536 ≤ maxRequestSize
    decide
  refine prefix_induction (P := fun before => (after before).Roomy) hstart fun before bytes rest h ih => ?_
  rw [after, List.foldl_append]
  exact ih.read (hfits before bytes rest h)

/-! ### When the loop is left -/

theorem foldl_read_cases (h : ∀ bytes ∈ reads, bytes ≠ []) (buffer : Bytes) (capacity : Nat) :
    (maxRequestSize ≤ (buffer ++ reads.flatten).length ∧ reads.foldl read (enter buffer capacity) = tooLarge) ∨
      (buffer ++ reads.flatten).length < maxRequestSize ∧
        ∃ capacity', reads.foldl read (enter buffer capacity) = reading (buffer ++ reads.flatten) capacity' := by
  induction reads generalizing buffer capacity with
  | nil =>
    rw [List.flatten_nil, List.append_nil, List.foldl_nil, enter]
    by_cases hlen : maxRequestSize ≤ buffer.length
    · exact .inl ⟨hlen, if_pos hlen⟩
    · exact .inr ⟨by omega, capacity, if_neg hlen⟩
  | cons bytes reads ih =>
    rw [List.forall_mem_cons] at h
    rw [List.flatten_cons, ← List.append_assoc]
    by_cases hlen : maxRequestSize ≤ buffer.length
    · refine .inl ⟨?_, foldl_read_of_le hlen _ _⟩
      rw [List.length_append, List.length_append]
      omega
    · obtain ⟨b, bs, rfl⟩ := List.exists_cons_of_ne_nil h.1
      rw [List.foldl_cons, enter, if_neg hlen]
      exact ih h.2 _ _

/-- After reads that deliver something the loop is left if and only if they have reached the limit, and then with an
error. -/
theorem after_cases (h : ∀ bytes ∈ reads, bytes ≠ []) :
    (maxRequestSize ≤ reads.flatten.length ∧ after reads = tooLarge) ∨
      reads.flatten.length < maxRequestSize ∧ ∃ capacity, after reads = reading reads.flatten capacity :=
  foldl_read_cases h [] 65536

theorem exited_iff (h : ∀ bytes ∈ reads, bytes ≠ []) :
    (after reads).Exited ↔ maxRequestSize ≤ reads.flatten.length := by
  rcases after_cases h with ⟨hlen, he⟩ | ⟨hlen, capacity, he⟩
  · rw [he]
    exact iff_of_true trivial hlen
  · rw [he]
    exact iff_of_false id (by omega)

/-- The loop is left after the last of the reads, and not before. -/
def StopsAtEnd (reads : List Bytes) : Prop :=
  (after reads).Exited ∧ ∀ before bytes rest, reads = before ++ bytes :: rest → ¬ (after before).Exited

/-- However the bytes of a request come in, the loop is not left when the last of them has been read, unless they are
as many as the limit allows, and then it is left without a request. -/
theorem stops_at_end_iff (hreads : ∀ bytes ∈ reads, bytes ≠ [])
    (hfits : ∀ before bytes rest, reads = before ++ bytes :: rest → (after before).Fits bytes) :
    (StopsAtEnd reads ↔ reads.flatten.length = maxRequestSize) ∧ ∀ request, after reads ≠ done request := by
  refine ⟨⟨?_, ?_⟩, ?_⟩
  · rintro ⟨hexited, hbefore⟩
    have hle := (exited_iff hreads).1 hexited
    rcases List.eq_nil_or_concat reads with rfl | ⟨before, bytes, rfl⟩
    · exact absurd hle (by decide)
    · rw [List.concat_eq_append] at *
      have hsub : ∀ bytes ∈ before, bytes ≠ [] := fun bytes h => hreads bytes (List.mem_append_left _ h)
      rcases after_cases hsub with ⟨-, he⟩ | ⟨hlt, capacity, he⟩
      · exact absurd (he ▸ trivial) (hbefore before bytes [] rfl)
      · have hfit := hfits before bytes [] rfl
        have hroom := roomy_after hfits before [bytes] rfl
        rw [he] at hfit hroom
        have hfit : bytes.length ≤ capacity - before.flatten.length := hfit
        have hroom : before.flatten.length < capacity ∧ capacity ≤ maxRequestSize := hroom
        rw [List.flatten_append, List.length_append, List.flatten_singleton] at hle ⊢
        omega
  · intro hlen
    refine ⟨(exited_iff hreads).2 (by omega), ?_⟩
    rintro before bytes rest rfl
    have hsub : ∀ bytes ∈ before, bytes ≠ [] := fun bytes h => hreads bytes (List.mem_append_left _ h)
    have hpos := List.length_pos_of_ne_nil (hreads bytes (by simp))
    rw [exited_iff hsub]
    rw [List.flatten_append, List.flatten_cons, List.length_append, List.length_append] at hlen
    omega
  · intro request
    rcases after_cases hreads with ⟨-, he⟩ | ⟨-, capacity, he⟩ <;> rw [he] <;> exact fun h => by cases h

end ReadLoop

end FileServer

namespace Sample
open FileServer ReadLoop

def wholeRequest : List Bytes := [utf8 "GET / HTTP/1.1\r\n\r\n"]

/-- The request has come in one read, and the loop waits for more. -/
theorem not_stops_at_end_wholeRequest : utf8 "\r\n\r\n" <:+ wholeRequest.flatten ∧
    (∀ bytes ∈ wholeRequest, bytes ≠ []) ∧ after wholeRequest = reading (utf8 "GET / HTTP/1.1\r\n\r\n") 65536 ∧
      ¬ StopsAtEnd wholeRequest := by
  have hafter : after wholeRequest = reading (utf8 "GET / HTTP/1.1\r\n\r\n") 65536 := by decide
  refine ⟨by decide, by decide, hafter, ?_⟩
  rintro ⟨hexited, -⟩
  rw [hafter] at hexited
  exact hexited

theorem stops_at_end_wholeRequest :
    (StopsAtEnd wholeRequest ↔ wholeRequest.flatten.length = maxRequestSize) ∧
      ∀ request, after wholeRequest ≠ done request := by
  refine stops_at_end_iff (by decide) ?_
  rintro before bytes rest h
  rcases before with _ | ⟨_, _ | _⟩
  · cases h
    show (utf8 "GET / HTTP/1.1\r\n\r\n").length ≤ 65536
    decide
  · cases h
  · cases h

end Sample

end XVideoDownloader
