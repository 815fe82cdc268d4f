import Rhiza.Node.Accepts
import Rhiza.Node.GraphProfile
import Rhiza.Node.KvProfile

/-! # Batches and single writes

A batch of the graph profile agrees with its members one at a time unless payloads
collide. A batch of the key-value profile sorts out repeated requests before it looks
for their records, so that a replay behind another command of its request is refused.
-/

namespace Rhiza.Node

open Rhiza.Core Rhiza.Library

structure ProfileView.Admitted {M C R D : Type} {p : Profile M C R} (v : ProfileView p D)
    (node : ProfileNode M) (members : List (ProfileMember C)) : Prop where
  writable : node.refusal = none
  good : ∃ n, v.Good node.machine n ∧ n + members.length < u64Bound
  fits : ∀ member ∈ members, v.Fits member
  short : members.length ≤ v.limit

theorem ProfileView.Admitted.agrees_iff {M C R D : Type} {p : Profile M C R} {v : ProfileView p D}
    {node : ProfileNode M} {members : List (ProfileMember C)} (h : v.Admitted node members)
    (hLaws : v.Lawful) :
    v.Agrees node.machine members (p.executeClientBatchLocked node members) (p.oneByOne node members) ↔
      v.NoFalseClash node.machine members := by
  obtain ⟨hWritable, ⟨n, hGood, hRoom⟩, hFits, hShort⟩ := h
  have hNode : node = ⟨node.machine, none⟩ := by rw [← hWritable]
  rw [hNode]
  exact hLaws.agrees_iff hFits hGood hRoom hShort

section Agreement

variable [Sha256] [Graph.Ladybug] {id : Kv.Identity} {identity : Graph.Identity}
  {kvNode : ProfileNode Kv.RedbStateMachine} {kvMembers : List (ProfileMember Kv.KvCommandV1)}
  {graphNode : ProfileNode Graph.LadybugStateMachine}
  {graphMembers : List (ProfileMember Graph.GraphCommandV1)}

/-- Batches agree with their members one at a time exactly when no member clashes falsely. -/
theorem batches_agree_iff (hKv : (kvView id).Admitted kvNode kvMembers)
    (hGraph : (graphView identity).Admitted graphNode graphMembers) :
    ((kvView id).Agrees kvNode.machine kvMembers (executeKvClientBatchLocked kvNode kvMembers)
        (kvProfile.oneByOne kvNode kvMembers) ↔
      (kvView id).NoFalseClash kvNode.machine kvMembers) ∧
    ((graphView identity).Agrees graphNode.machine graphMembers
        (executeGraphClientBatch graphNode graphMembers)
        (graphProfile.oneByOne graphNode graphMembers) ↔
      (graphView identity).NoFalseClash graphNode.machine graphMembers) := by
  refine ⟨hKv.agrees_iff (kv_lawful id), ?_⟩
  rw [executeGraphClientBatch, hGraph.writable]
  exact hGraph.agrees_iff (graph_lawful identity)

end Agreement

namespace Replayed

attribute [local instance] Sha256.rolling

@[reducible] def ladybug : Graph.Ladybug := ⟨40⟩

attribute [local instance] ladybug

def kvIdentity : Kv.Identity := ⟨"cluster", "n1", 1, 0⟩

def fresh : ProfileNode Kv.RedbStateMachine :=
  ⟨⟨⟨[], [], Kv.initialProgress "cluster" "n1" 1 0, []⟩, "cluster", "n1", 1, 0⟩, none⟩

def put (value : Bytes) : ProfileMember Kv.KvCommandV1 where
  payload := (Kv.encodeReplicatedKvCommand ⟨"r", .put [107] value⟩).toOption.getD []
  command := ⟨"r", .put [107] value⟩

def written : ProfileNode Kv.RedbStateMachine := (kvProfile.mutatePayloadLocked fresh (put [1])).2

theorem put_fits : (kvView kvIdentity).Fits (put [1]) ∧ (kvView kvIdentity).Fits (put [2]) := by
  unfold kvView
  dsimp only
  decide +kernel

theorem written_admitted {members : List (ProfileMember Kv.KvCommandV1)} (hShort : members.length ≤ 2)
    (hFits : ∀ member ∈ members, (kvView kvIdentity).Fits member) :
    (kvView kvIdentity).Admitted written members := by
  have hFresh : (kvView kvIdentity).Good fresh.machine 0 :=
    ⟨⟨0, .zero⟩, fun _ => none, Kv.Holds.fresh kvIdentity, rfl⟩
  obtain ⟨answer, m', n', hMutate, hMutated⟩ :=
    (kv_lawful kvIdentity).mutate hFresh (by decide) put_fits.1
  have hWritten : written = ⟨m', none⟩ := congrArg Prod.snd hMutate
  have hRoom : n' + members.length < u64Bound :=
    lt_of_le_of_lt (Nat.add_le_add hMutated.index hShort) (by decide)
  rw [hWritten]
  exact ⟨rfl, ⟨n', hMutated.good, hRoom⟩, hFits, hShort.trans (by decide)⟩

/-- The replay is answered with its record when it comes alone, and refused in the batch. -/
theorem replay_is_refused :
    (kvView kvIdentity).Admitted written [put [2], put [1]] ∧
      ¬ (kvView kvIdentity).Agrees written.machine [put [2], put [1]]
        (executeKvClientBatchLocked written [put [2], put [1]])
        (kvProfile.oneByOne written [put [2], put [1]]) := by
  refine ⟨written_admitted (Nat.le_refl 2) ?_, fun h => absurd h.kinds (by decide +kernel)⟩
  exact List.forall_mem_cons.mpr ⟨put_fits.2, List.forall_mem_singleton.mpr put_fits.1⟩

def graphIdentity : Graph.Identity := ⟨"cluster", "n1", 1, 0⟩

def freshGraph : ProfileNode Graph.LadybugStateMachine :=
  ⟨⟨⟨Graph.initialMetadata graphIdentity, [], []⟩, graphIdentity⟩, none⟩

def document : ProfileMember Graph.GraphCommandV1 where
  payload := (Graph.encodeReplicatedGraphCommand ⟨"r", .putDocument "d" .null⟩).toOption.getD []
  command := ⟨"r", .putDocument "d" .null⟩

theorem document_fits : (graphView graphIdentity).Fits document := by
  refine ⟨?_, ?_, ?_, trivial⟩
  · decide +kernel
  · decide +kernel
  · decide +kernel

theorem freshGraph_admitted : (graphView graphIdentity).Admitted freshGraph [document, document] where
  writable := rfl
  good := ⟨0, ⟨⟨0, .zero⟩, fun _ => none, Accepts.graph_holds_fresh graphIdentity, rfl⟩, by decide⟩
  fits := List.forall_mem_cons.mpr ⟨document_fits, List.forall_mem_singleton.mpr document_fits⟩
  short := by decide

/-- One member twice, a replay in KV and a new document in the graph: each batch answers as its
members one at a time. -/
theorem repeats_agree :
    (kvView kvIdentity).Agrees written.machine [put [1], put [1]]
      (executeKvClientBatchLocked written [put [1], put [1]])
      (kvProfile.oneByOne written [put [1], put [1]]) ∧
    (graphView graphIdentity).Agrees freshGraph.machine [document, document]
      (executeGraphClientBatch freshGraph [document, document])
      (graphProfile.oneByOne freshGraph [document, document]) := by
  have hFits : ∀ member ∈ [put [1], put [1]], (kvView kvIdentity).Fits member :=
    List.forall_mem_cons.mpr ⟨put_fits.1, List.forall_mem_singleton.mpr put_fits.1⟩
  have hAdmitted : (kvView kvIdentity).Admitted written [put [1], put [1]] :=
    written_admitted (Nat.le_refl 2) hFits
  have hPut : ∀ member ∈ [put [1], put [1]], member = put [1] := by simp
  have hDocument : ∀ member ∈ [document, document], member = document := by simp
  obtain ⟨hKv, hGraph⟩ := batches_agree_iff hAdmitted freshGraph_admitted
  refine ⟨hKv.mpr ?_, hGraph.mpr ?_⟩
  · intro member hMember first hFirst hOther _
    have hFirstMem := List.mem_of_find?_eq_some hFirst
    exact absurd (congrArg _ ((hPut first hFirstMem).trans (hPut member hMember).symm)) hOther
  · intro member hMember first hFirst hOther _
    have hFirstMem := List.mem_of_find?_eq_some hFirst
    exact absurd (congrArg _ ((hDocument first hFirstMem).trans (hDocument member hMember).symm)) hOther

end Replayed

end Rhiza.Node
