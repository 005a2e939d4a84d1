import XVideoDownloader.HashRing
import XVideoDownloader.Lib.Circle
import XVideoDownloader.Lib.Slices
import Mathlib.Data.Set.Function

/-!
# The hash ring over sequences of operations

`HashRing.Represents M` says that a ring stores exactly the devices `M`; `add_device` and `remove_device` keep it
(for `insert` and set difference), and `get_owner` then is the circular successor of the URL's hash among the
hashes of `M`. Everything else follows from these three facts: the owner depends on the members only, and a URL
moves only towards an added device or away from a removed one.
-/

namespace XVideoDownloader
open Lib DefaultHasher

namespace HashRing
variable [DefaultHasher]

inductive Op
  | addDevice (device : Device)
  | removeDevice (deviceId : Uuid)

def Op.deviceId : Op → Uuid
  | addDevice device => device.id
  | removeDevice deviceId => deviceId

def apply (ring : HashRing) : Op → HashRing
  | .addDevice device => ring.addDevice device
  | .removeDevice deviceId => ring.removeDevice deviceId

/-- The ring after the calls `ops`, made one at a time on an empty ring. -/
def build (ops : List Op) : HashRing := ops.foldl apply new

theorem build_concat (ops : List Op) (o : Op) : build (ops ++ [o]) = (build ops).apply o := by
  rw [build, List.foldl_append]
  rfl

end HashRing

namespace HashRing

/-- The devices ever added or removed. -/
def involved (ops : List Op) : Set Uuid := {id | ∃ o ∈ ops, o.deviceId = id}

/-- The devices added and not removed since. -/
def members (ops : List Op) : Set Uuid :=
  {id | ∃ before device after, ops = before ++ .addDevice device :: after ∧ device.id = id ∧
    .removeDevice id ∉ after}

variable {ops : List Op} {device : Device} {id deviceId : Uuid}

theorem involved_concat (ops : List Op) (o : Op) : involved (ops ++ [o]) = insert o.deviceId (involved ops) := by
  ext id
  simp [involved, or_and_right, exists_or, or_comm, eq_comm]

theorem mem_members_of_concat {o : Op} (h : id ∈ members ops) (ho : o ≠ .removeDevice id) :
    id ∈ members (ops ++ [o]) := by
  obtain ⟨before, device, after, rfl, hid, hafter⟩ := h
  refine ⟨before, device, after ++ [o], by simp, hid, ?_⟩
  simpa [hafter] using ho.symm

/-- A member is one by the last operation or already was one. -/
theorem of_mem_members_concat {o : Op} (h : id ∈ members (ops ++ [o])) :
    o ≠ .removeDevice id ∧ ((∃ device, o = .addDevice device ∧ device.id = id) ∨ id ∈ members ops) := by
  obtain ⟨before, device, after, he, hid, hafter⟩ := h
  rcases concat_cut he with ⟨-, rfl, -⟩ | ⟨after, rfl, hops⟩
  · exact ⟨by simp, Or.inl ⟨device, rfl, hid⟩⟩
  · refine ⟨fun ho => hafter (by simp [ho]), Or.inr ⟨before, device, after, hops, hid, fun hm => hafter ?_⟩⟩
    simp [hm]

theorem members_addDevice (ops : List Op) (device : Device) :
    members (ops ++ [.addDevice device]) = insert device.id (members ops) := by
  ext id
  constructor
  · intro h
    rcases (of_mem_members_concat h).2 with ⟨d, hd, hid⟩ | hm
    · cases hd
      exact Or.inl hid.symm
    · exact Or.inr hm
  · rintro (rfl | hm)
    · exact ⟨ops, device, [], rfl, rfl, List.not_mem_nil⟩
    · exact mem_members_of_concat hm (by simp)

theorem members_removeDevice (ops : List Op) (deviceId : Uuid) :
    members (ops ++ [.removeDevice deviceId]) = members ops \ {deviceId} := by
  ext id
  constructor
  · intro h
    obtain ⟨hne, ⟨d, hd, -⟩ | hm⟩ := of_mem_members_concat h
    · cases hd
    · refine ⟨hm, ?_⟩
      rintro rfl
      exact hne rfl
  · rintro ⟨hm, hne⟩
    refine mem_members_of_concat hm ?_
    intro he
    cases he
    exact hne rfl

theorem members_subset (ops : List Op) : members ops ⊆ involved ops := by
  rintro id ⟨before, device, after, rfl, rfl, -⟩
  exact ⟨.addDevice device, by simp, rfl⟩

/-! ### What a ring stores -/

theorem first_eq_none {nodes : List (Nat × Uuid)} : first nodes = none ↔ nodes = [] := by
  rw [first, Option.map_eq_none_iff, List.argmin_eq_none]

/-- The first node has the least hash. -/
theorem first_eq_some {nodes : List (Nat × Uuid)} (h : first nodes = some id) :
    ∃ n ∈ nodes, n.2 = id ∧ ∀ n' ∈ nodes, n.1 ≤ n'.1 := by
  obtain ⟨n, hn, hid⟩ := Option.map_eq_some_iff.1 h
  exact ⟨n, List.argmin_mem hn, hid, fun n' hn' => List.le_of_mem_argmin hn' hn⟩

variable [DefaultHasher] {ring ring' : HashRing} {M M' : Set Uuid} {url : String}

/-- `nodes` maps the hash of each device of `M` to its id, and `devices` has the devices of `M` as its keys. -/
structure Represents (ring : HashRing) (M : Set Uuid) : Prop where
  nodes : ∀ n, n ∈ ring.nodes.rows ↔ n.2 ∈ M ∧ n.1 = hashDevice n.2
  devices : ∀ id, (∃ d ∈ ring.devices.rows, d.id = id) ↔ id ∈ M

namespace Represents

theorem new : HashRing.new.Represents ∅ := by
  constructor <;> simp [HashRing.new]

theorem addDevice (h : ring.Represents M) (hinj : Set.InjOn hashDevice (insert device.id M)) :
    (ring.addDevice device).Represents (insert device.id M) := by
  constructor
  · rintro ⟨x, id⟩
    simp only [HashRing.addDevice, Table.rows_put, List.mem_append, List.mem_filter, h.nodes,
      List.mem_singleton, Prod.mk.injEq, decide_eq_true_eq, Set.mem_insert_iff]
    constructor
    · rintro (⟨⟨hid, hx⟩, -⟩ | ⟨rfl, rfl⟩)
      · exact ⟨Or.inr hid, hx⟩
      · exact ⟨Or.inl rfl, rfl⟩
    · rintro ⟨hid, rfl⟩
      by_cases he : id = device.id
      · exact Or.inr ⟨by rw [he], he⟩
      · have hid := hid.resolve_left he
        exact Or.inl ⟨⟨hid, rfl⟩, fun hh => he (hinj (Or.inr hid) (Or.inl rfl) hh)⟩
  · intro id
    simp only [HashRing.addDevice, Table.rows_put, List.mem_append, List.mem_filter, List.mem_singleton,
      decide_eq_true_eq, Set.mem_insert_iff, ← h.devices]
    constructor
    · rintro ⟨d, ⟨hd, -⟩ | rfl, rfl⟩
      · exact Or.inr ⟨d, hd, rfl⟩
      · exact Or.inl rfl
    · rintro (rfl | ⟨d, hd, rfl⟩)
      · exact ⟨device, Or.inr rfl, rfl⟩
      · by_cases he : d.id = device.id
        · exact ⟨device, Or.inr rfl, he.symm⟩
        · exact ⟨d, Or.inl ⟨hd, he⟩, rfl⟩

theorem removeDevice (h : ring.Represents M) (hinj : Set.InjOn hashDevice (insert deviceId M)) :
    (ring.removeDevice deviceId).Represents (M \ {deviceId}) := by
  constructor
  · rintro ⟨x, id⟩
    simp only [HashRing.removeDevice, Table.rows_delete, List.mem_filter, h.nodes, Set.mem_sdiff,
      Set.mem_singleton_iff, Bool.not_eq_true', decide_eq_false_iff_not]
    constructor
    · rintro ⟨⟨hid, rfl⟩, hne⟩
      exact ⟨⟨hid, fun he => hne (by rw [he])⟩, rfl⟩
    · rintro ⟨⟨hid, hne⟩, rfl⟩
      exact ⟨⟨hid, rfl⟩, fun hh => hne (hinj (Or.inr hid) (Or.inl rfl) hh)⟩
  · intro id
    simp only [HashRing.removeDevice, Table.rows_delete, List.mem_filter, Set.mem_sdiff, ← h.devices,
      Set.mem_singleton_iff, Bool.not_eq_true', decide_eq_false_iff_not]
    constructor
    · rintro ⟨d, ⟨hd, hne⟩, rfl⟩
      exact ⟨⟨d, hd, rfl⟩, hne⟩
    · rintro ⟨⟨d, hd, rfl⟩, hne⟩
      exact ⟨d, ⟨hd, hne⟩, rfl⟩

theorem getOwner_eq_none (h : ring.Represents M) : ring.getOwner url = none ↔ ∀ id, id ∉ M := by
  have hempty : ring.nodes.rows = [] ↔ ∀ id, id ∉ M := by
    rw [List.eq_nil_iff_forall_not_mem]
    constructor
    · intro hn id hid
      exact hn (hashDevice id, id) ((h.nodes _).2 ⟨hid, rfl⟩)
    · intro hM n hn
      exact hM n.2 ((h.nodes n).1 hn).1
  rw [← hempty]
  unfold getOwner
  split
  · rename_i hnil
    simp [hnil]
  · rename_i hne
    split
    · simp [hne]
    · rw [first_eq_none]

theorem successor_of_getOwner (h : ring.Represents M) (ho : ring.getOwner url = some id) :
    id ∈ M ∧ Successor (hashDevice '' M) (hashUrl url) (hashDevice id) := by
  have hle : ∀ {x : Nat} {m : Uuid}, (x, m) ∈ ring.nodes.rows → m ∈ M ∧ x = hashDevice m :=
    fun hn => (h.nodes _).1 hn
  unfold getOwner at ho
  split at ho
  · cases ho
  split at ho
  · rename_i id' hf
    cases ho
    obtain ⟨⟨x, m⟩, hn, rfl, hmin⟩ := first_eq_some hf
    obtain ⟨hn, hge⟩ := List.mem_filter.1 hn
    obtain ⟨hm, rfl⟩ := hle hn
    refine ⟨hm, Or.inl ⟨⟨⟨m, hm, rfl⟩, of_decide_eq_true hge⟩, ?_⟩⟩
    rintro - ⟨⟨m', hm', rfl⟩, hge'⟩
    exact hmin (hashDevice m', m') (List.mem_filter.2 ⟨(h.nodes _).2 ⟨hm', rfl⟩, decide_eq_true hge'⟩)
  · rename_i hf
    obtain ⟨⟨x, m⟩, hn, rfl, hmin⟩ := first_eq_some ho
    obtain ⟨hm, rfl⟩ := hle hn
    have hlow := List.filter_eq_nil_iff.1 (first_eq_none.1 hf)
    refine ⟨hm, Or.inr ⟨?_, ⟨m, hm, rfl⟩, ?_⟩⟩
    · rintro - ⟨m', hm', rfl⟩
      simpa using hlow (hashDevice m', m') ((h.nodes _).2 ⟨hm', rfl⟩)
    · rintro - ⟨m', hm', rfl⟩
      exact hmin (hashDevice m', m') ((h.nodes _).2 ⟨hm', rfl⟩)

/-- The owner is the member whose hash follows the hash of the URL on the circle. -/
theorem getOwner_eq_some (h : ring.Represents M) (hinj : Set.InjOn hashDevice M) :
    ring.getOwner url = some id ↔
      id ∈ M ∧ Successor (hashDevice '' M) (hashUrl url) (hashDevice id) := by
  refine ⟨h.successor_of_getOwner, ?_⟩
  rintro ⟨hid, hs⟩
  cases ho : ring.getOwner url with
  | none => exact absurd hid (h.getOwner_eq_none.1 ho id)
  | some id' =>
    obtain ⟨hid', hs'⟩ := h.successor_of_getOwner ho
    rw [hinj hid' hid (hs'.unique hs)]

/-- An owner is still the owner on a ring with fewer devices, as long as it is one of them. -/
theorem getOwner_anti (h : ring.Represents M) (h' : ring'.Represents M') (hinj : Set.InjOn hashDevice M)
    (hM : M' ⊆ M) (ho : ring.getOwner url = some id) (hid : id ∈ M') : ring'.getOwner url = some id := by
  obtain ⟨-, hs⟩ := h.successor_of_getOwner ho
  rw [h'.getOwner_eq_some (hinj.mono hM)]
  exact ⟨hid, hs.anti (Set.image_mono hM) ⟨id, hid, rfl⟩⟩

theorem getOwner_congr (h : ring.Represents M) (h' : ring'.Represents M) (hinj : Set.InjOn hashDevice M)
    (url : String) : ring'.getOwner url = ring.getOwner url := by
  cases ho : ring.getOwner url with
  | none => exact h'.getOwner_eq_none.2 (h.getOwner_eq_none.1 ho)
  | some id => exact h.getOwner_anti h' hinj subset_rfl ho (h.successor_of_getOwner ho).1

/-- On the smaller of two rings a URL has its owner on the larger one, unless that is the device `d` between
them. -/
theorem getOwner_of_insert (h : ring.Represents M) (h' : ring'.Represents M') (hinj : Set.InjOn hashDevice M)
    (hM : M' ⊆ M) (hd : M ⊆ insert deviceId M') (ho : ring.getOwner url ≠ some deviceId) :
    ring'.getOwner url = ring.getOwner url := by
  cases he : ring.getOwner url with
  | none => exact h'.getOwner_eq_none.2 fun id hid => h.getOwner_eq_none.1 he id (hM hid)
  | some id =>
    have hid : id ∈ M' := (hd (h.successor_of_getOwner he).1).resolve_left fun h => ho (by rw [he, h])
    exact h.getOwner_anti h' hinj hM he hid

end Represents

/-! ### Sequences of operations -/

theorem represents_build (ops : List Op) (hinj : Set.InjOn hashDevice (involved ops)) :
    (build ops).Represents (members ops) := by
  induction ops using List.reverseRecOn with
  | nil =>
    have hempty : members [] = ∅ := Set.subset_empty_iff.1 ((members_subset []).trans (by simp [involved]))
    rw [hempty]
    exact .new
  | append_singleton ops o ih =>
    rw [involved_concat] at hinj
    have ih := ih (hinj.mono (Set.subset_insert _ _))
    have hinj := hinj.mono (Set.insert_subset_insert (members_subset ops))
    rw [build_concat]
    cases o with
    | addDevice device =>
      rw [members_addDevice]
      exact ih.addDevice hinj
    | removeDevice deviceId =>
      rw [members_removeDevice]
      exact ih.removeDevice hinj

/-- The ring holds the current members and nothing else, every URL belongs to the member that follows it on the
circle, and which calls led there, and in which order, does not matter. -/
theorem build_members (ops : List Op) (hinj : Set.InjOn hashDevice (involved ops)) :
    (∀ hash id, (hash, id) ∈ (build ops).nodes.rows ↔ id ∈ members ops ∧ hash = hashDevice id) ∧
      (∀ id, (∃ d ∈ (build ops).devices.rows, d.id = id) ↔ id ∈ members ops) ∧
      (∀ url, ((build ops).getOwner url = none ↔ ∀ id, id ∉ members ops) ∧
        ∀ id, (build ops).getOwner url = some id ↔
          id ∈ members ops ∧ Successor (hashDevice '' members ops) (hashUrl url) (hashDevice id)) ∧
      ∀ ops', Set.InjOn hashDevice (involved ops') → members ops' = members ops →
        ∀ url, (build ops').getOwner url = (build ops).getOwner url := by
  have h := represents_build ops hinj
  have hinj := hinj.mono (members_subset ops)
  refine ⟨fun _ _ => h.nodes _, h.devices, fun url => ⟨h.getOwner_eq_none, fun id => h.getOwner_eq_some hinj⟩, ?_⟩
  intro ops' hinj' hm url
  exact h.getOwner_congr (hm ▸ represents_build ops' hinj') hinj url

/-- A URL changes hands only towards an added device or away from a removed one, and adding a device that is not
a member and removing it again moves nothing. -/
theorem build_disruption (ops : List Op) (device : Device) (url : String)
    (hinj : Set.InjOn hashDevice (insert device.id (involved ops))) :
    (((build ops).addDevice device).getOwner url = (build ops).getOwner url ∨
        ((build ops).addDevice device).getOwner url = some device.id) ∧
      ((build ops).getOwner url ≠ some device.id →
        ((build ops).removeDevice device.id).getOwner url = (build ops).getOwner url) ∧
      (device.id ∉ members ops →
        (((build ops).addDevice device).removeDevice device.id).getOwner url = (build ops).getOwner url) := by
  have h := represents_build ops (hinj.mono (Set.subset_insert _ _))
  have hinj := hinj.mono (Set.insert_subset_insert (members_subset ops))
  have hM := hinj.mono (Set.subset_insert _ _)
  have hadd := h.addDevice hinj
  refine ⟨?_, ?_, ?_⟩
  · by_cases ho : ((build ops).addDevice device).getOwner url = some device.id
    · exact Or.inr ho
    · exact Or.inl (hadd.getOwner_of_insert h hinj (Set.subset_insert _ _) subset_rfl ho).symm
  · intro ho
    exact h.getOwner_of_insert (h.removeDevice hinj) hM Set.sdiff_subset (by simp) ho
  · intro hnot
    have hinj' : Set.InjOn hashDevice (insert device.id (insert device.id (members ops))) := by
      rwa [Set.insert_idem]
    have hback := hadd.removeDevice hinj'
    rw [Set.insert_sdiff_self_of_notMem hnot] at hback
    exact h.getOwner_congr hback hM url

end HashRing

namespace Sample
open HashRing

def ringDevice (id : Uuid) : Device := ⟨id, 10, "device", none, none, 0, true⟩

theorem hashDevice_injOn (M : Set Uuid) : Set.InjOn hashDevice M :=
  fun _ _ _ _ h => BitVec.eq_of_toNat_eq h

/-- A device that is removed and added again owns the URLs it owned. -/
theorem build_readded :
    (build [.addDevice (ringDevice 1), .removeDevice 1, .addDevice (ringDevice 1)]).getOwner "test_url" = some 1 := by
  have hm : members [.addDevice (ringDevice 1), .removeDevice 1, .addDevice (ringDevice 1)] =
      members [.addDevice (ringDevice 1)] := by
    have h2 := members_addDevice [.addDevice (ringDevice 1), .removeDevice 1] (ringDevice 1)
    have h1 := members_removeDevice [.addDevice (ringDevice 1)] 1
    have h0 := members_addDevice [] (ringDevice 1)
    simp only [List.cons_append, List.nil_append] at h0 h1 h2
    rw [h2, h1, h0]
    show insert 1 (insert 1 _ \ {1}) = insert 1 _
    simp
  rw [(build_members [.addDevice (ringDevice 1)] (hashDevice_injOn _)).2.2.2 _ (hashDevice_injOn _) hm]
  decide

theorem build_disruption_three :
    (((build [.addDevice (ringDevice 1), .addDevice (ringDevice 5)]).addDevice (ringDevice 3)).removeDevice
      3).getOwner "ab" = some 5 := by
  have h3 : (3 : Uuid) ∉ members [.addDevice (ringDevice 1), .addDevice (ringDevice 5)] := by
    intro h
    obtain ⟨o, ho, h3⟩ := members_subset _ h
    rcases List.mem_pair.1 ho with rfl | rfl <;> exact absurd h3 (by decide)
  exact ((build_disruption _ (ringDevice 3) "ab" (hashDevice_injOn _)).2.2 h3).trans (by decide)

end Sample

end XVideoDownloader
