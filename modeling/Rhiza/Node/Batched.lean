import Rhiza.Node.OneByOne

/-! # Batches of the key-value and the graph profile

What becomes of every member of a batch: it is looked up, queued under its request,
an alias of the queued one, or a clash with it. The queued ones without a record
are committed in order, and the others do not change the journal.
-/

namespace Rhiza.Node

open Rhiza.Core Rhiza.Library

variable {M C R D : Type}

def Profile.firstOf (p : Profile M C R) (members : List (ProfileMember C)) (member : ProfileMember C) :
    Option (ProfileMember C) :=
  members.find? fun other => p.requestId member.command = p.requestId other.command

def pick (members : List (ProfileMember C)) (indices : List Nat) : List (ProfileMember C) :=
  indices.filterMap (members[·]?)

theorem mem_pick {members : List (ProfileMember C)} {indices : List Nat} {member : ProfileMember C} :
    member ∈ pick members indices ↔ ∃ index ∈ indices, members[index]? = some member :=
  List.mem_filterMap

theorem pick_append (members : List (ProfileMember C)) (left right : List Nat) :
    pick members (left ++ right) = pick members left ++ pick members right := List.filterMap_append

theorem pick_cons {members : List (ProfileMember C)} {index : Nat} {member : ProfileMember C}
    (h : members[index]? = some member) (rest : List Nat) :
    pick members (index :: rest) = member :: pick members rest := List.filterMap_cons_some h

theorem length_pick {members : List (ProfileMember C)} {indices : List Nat}
    (h : ∀ index ∈ indices, ∃ member, members[index]? = some member) :
    (pick members indices).length = indices.length := by
  induction indices with
  | nil => rfl
  | cons index indices ih =>
    obtain ⟨member, hMember⟩ := h index List.mem_cons_self
    rw [pick_cons hMember, List.length_cons, List.length_cons,
      ih fun other hOther => h other (List.mem_cons_of_mem _ hOther)]

section Aliases

variable {Answer : Type} {results : List (Option Answer)} {aliases : List (Option Nat × Nat)}
  {i c : Nat} {x : Option Answer}

theorem length_copyAliases : (copyAliases results aliases).length = results.length := by
  induction aliases generalizing results with
  | nil => rfl
  | cons first rest ih =>
    obtain ⟨_ | canonical, index⟩ := first
    · exact ih
    · exact ih.trans List.length_set

theorem copyAliases_kept (h : ∀ entry ∈ aliases, entry.2 = i → entry.1 = none) :
    (copyAliases results aliases)[i]? = results[i]? := by
  induction aliases generalizing results with
  | nil => rfl
  | cons first rest ih =>
    have hRest : ∀ entry ∈ rest, entry.2 = i → entry.1 = none :=
      fun entry hEntry => h entry (List.mem_cons_of_mem _ hEntry)
    obtain ⟨_ | canonical, index⟩ := first
    · exact ih hRest
    · have hOther : index ≠ i := fun hSame => nomatch h _ List.mem_cons_self hSame
      exact (ih hRest).trans (List.getElem?_set_ne hOther)

theorem copyAliases_copied (hOnly : ∀ entry ∈ aliases, entry.2 = i → entry.1 = some c)
    (hCanonical : ∀ entry ∈ aliases, entry.2 = c → entry.1 = none) (hLength : i < results.length)
    (hValue : results[c]? = some x) (h : results[i]? = some x ∨ (some c, i) ∈ aliases) :
    (copyAliases results aliases)[i]? = some x := by
  induction aliases generalizing results with
  | nil => exact h.resolve_right List.not_mem_nil
  | cons first rest ih =>
    have hOnlyRest : ∀ entry ∈ rest, entry.2 = i → entry.1 = some c :=
      fun entry hEntry => hOnly entry (List.mem_cons_of_mem _ hEntry)
    have hCanonicalRest : ∀ entry ∈ rest, entry.2 = c → entry.1 = none :=
      fun entry hEntry => hCanonical entry (List.mem_cons_of_mem _ hEntry)
    obtain ⟨_ | canonical, index⟩ := first
    · refine ih hOnlyRest hCanonicalRest hLength hValue (h.imp_right fun hMem => ?_)
      rcases List.mem_cons.mp hMem with hHead | hTail
      · cases hHead
      · exact hTail
    · have hNotC : index ≠ c := fun hSame => nomatch hCanonical _ List.mem_cons_self hSame
      have hLength' : i < (results.set index (results[canonical]?).join).length := by
        rwa [List.length_set]
      refine ih hOnlyRest hCanonicalRest hLength' ((List.getElem?_set_ne hNotC).trans hValue) ?_
      by_cases hHere : index = i
      · obtain rfl := Option.some.inj (hOnly _ List.mem_cons_self hHere)
        subst hHere
        left
        rw [List.getElem?_set_self hLength, hValue]
        rfl
      · refine h.imp (fun hOld => (List.getElem?_set_ne hHere).trans hOld) fun hMem => ?_
        rcases List.mem_cons.mp hMem with hHead | hTail
        · cases hHead
          exact absurd rfl hHere
        · exact hTail

end Aliases

namespace ProfileView

variable {p : Profile M C R} {v : ProfileView p D} {m : M} {n : Nat}
  {members before rest : List (ProfileMember C)} {member : ProfileMember C} {scan : Scan R}

def Clash (v : ProfileView p D) (m : M) (members : List (ProfileMember C))
    (member : ProfileMember C) : Prop :=
  ∃ first, p.firstOf members member = some first ∧ first.payload ≠ member.payload ∧
    (p.looksUpFirst = true → v.record m (p.requestId member.command) = none)

inductive Placed (v : ProfileView p D) (m : M) (members : List (ProfileMember C)) (scan : Scan R)
    (i : Nat) (member : ProfileMember C) : Prop
  | queued (hQueued : i ∈ scan.queued) (hAlias : scan.aliases[i]? = some none)
  | copied (c : Nat) (canonical : ProfileMember C) (hAlias : scan.aliases[i]? = some (some c))
      (hQueued : c ∈ scan.queued) (hMember : members[c]? = some canonical)
      (hFirst : p.firstOf members member = some canonical)
      (hKey : p.requestId canonical.command = p.requestId member.command)
      (hPayload : canonical.payload = member.payload)
  | clash (message : String) (hAlias : scan.aliases[i]? = some none)
      (hResult : scan.results[i]? = some (some (.error (.invalidRequest message))))
      (hClash : v.Clash m members member)
  | looked (answer : Except NodeError (MutationOutcome R)) (hAlias : scan.aliases[i]? = some none)
      (hResult : scan.results[i]? = some (some answer)) (hAnswered : v.Answered m member answer)
      (hFirst : p.looksUpFirst = true)

structure Scanned (v : ProfileView p D) (m : M) (members before : List (ProfileMember C))
    (scan : Scan R) : Prop where
  aliases : scan.aliases.length = before.length
  results : scan.results.length = before.length
  placed : ∀ i member, before[i]? = some member → v.Placed m members scan i member
  short : scan.queued.length ≤ before.length
  queued : ∀ i ∈ scan.queued, scan.results[i]? = some none ∧ scan.aliases[i]? = some none ∧
    ∃ member, before[i]? = some member ∧ p.firstOf members member = some member ∧
      (p.looksUpFirst = true → v.record m (p.requestId member.command) = none)
  distinct : ((pick members scan.queued).map fun member => p.requestId member.command).Nodup
  journal : v.works.execAll (v.journal m) (pick members scan.queued) =
    v.works.execAll (v.journal m) before
  canonical : ∀ requestId c, Assoc.get scan.canonicalByRequest requestId = some c →
    c ∈ scan.queued ∧ ∃ first, before[c]? = some first ∧ p.requestId first.command = requestId
  fresh : ∀ member ∈ before, Assoc.get scan.canonicalByRequest (p.requestId member.command) = none →
    p.looksUpFirst = true ∧ (v.record m (p.requestId member.command)).isSome

theorem firstOf_of_new (h : ∀ earlier ∈ before,
      p.requestId member.command ≠ p.requestId earlier.command) :
    p.firstOf (before ++ member :: rest) member = some member := by
  unfold Profile.firstOf
  rw [List.find?_append, List.find?_eq_none.mpr (by simpa using h), Option.none_or]
  exact List.find?_cons_of_pos (decide_eq_true rfl)

theorem firstOf_congr {other : ProfileMember C}
    (h : p.requestId other.command = p.requestId member.command) :
    p.firstOf members member = p.firstOf members other := by
  unfold Profile.firstOf
  rw [h]

theorem Placed.grow {scan' : Scan R} {i : Nat} (h : v.Placed m members scan i member)
    (hAliases : scan.aliases <+: scan'.aliases) (hResults : scan.results <+: scan'.results)
    (hQueued : scan.queued ⊆ scan'.queued) : v.Placed m members scan' i member := by
  have hKeep : ∀ {α : Type} {l l' : List α} {x : α}, l <+: l' → l[i]? = some x → l'[i]? = some x := by
    intro α l l' x hPrefix hHere
    obtain ⟨tail, rfl⟩ := hPrefix
    rw [List.getElem?_append_left (List.getElem?_eq_some_iff.mp hHere).1, hHere]
  cases h with
  | queued hIn hAlias => exact .queued (hQueued hIn) (hKeep hAliases hAlias)
  | copied c canonical hAlias hIn hMember hFirst hKey hPayload =>
    exact .copied c canonical (hKeep hAliases hAlias) (hQueued hIn) hMember hFirst hKey hPayload
  | clash message hAlias hResult hClash =>
    exact .clash message (hKeep hAliases hAlias) (hKeep hResults hResult) hClash
  | looked answer hAlias hResult hAnswered hFirst =>
    exact .looked answer (hKeep hAliases hAlias) (hKeep hResults hResult) hAnswered hFirst

theorem Scanned.skip (h : v.Scanned m members before scan) {alias' : Option Nat}
    {result : Option (Except NodeError (MutationOutcome R))}
    (hPlaced : v.Placed m members ⟨scan.results ++ [result], scan.aliases ++ [alias'],
      scan.canonicalByRequest, scan.queued⟩ before.length member)
    (hKnown : (v.record m (p.requestId member.command)).isSome ∨
      ∃ earlier ∈ before, p.requestId member.command = p.requestId earlier.command)
    (hFresh : Assoc.get scan.canonicalByRequest (p.requestId member.command) = none →
      p.looksUpFirst = true ∧ (v.record m (p.requestId member.command)).isSome) :
    v.Scanned m members (before ++ [member]) ⟨scan.results ++ [result], scan.aliases ++ [alias'],
      scan.canonicalByRequest, scan.queued⟩ where
  aliases := by simp [h.aliases]
  results := by simp [h.results]
  placed i other hOther := by
    by_cases hi : i < before.length
    · rw [List.getElem?_append_left hi] at hOther
      exact (h.placed i other hOther).grow (List.prefix_append _ _) (List.prefix_append _ _)
        (List.Subset.refl _)
    · have hSome := (List.getElem?_eq_some_iff.mp hOther).1
      rw [List.length_append, List.length_singleton] at hSome
      obtain rfl : i = before.length := by omega
      rw [List.getElem?_concat_length] at hOther
      obtain rfl := Option.some.inj hOther
      exact hPlaced
  short := h.short.trans (by simp)
  queued i hi := by
    obtain ⟨hResult, hAlias, other, hOther, hRest⟩ := h.queued i hi
    have hLength := (List.getElem?_eq_some_iff.mp hOther).1
    refine ⟨?_, ?_, other, ?_, hRest⟩
    · rw [List.getElem?_append_left (by rw [h.results]; exact hLength), hResult]
    · rw [List.getElem?_append_left (by rw [h.aliases]; exact hLength), hAlias]
    · rw [List.getElem?_append_left hLength, hOther]
  distinct := h.distinct
  journal := by
    have hDone : ((v.works.execAll (v.journal m) before).done (v.works.key member)).isSome := by
      rw [Works.isSome_done_execAll, isSome_done]
      exact hKnown
    rw [Works.execAll_append, h.journal]
    exact (Works.exec_of_done hDone).symm
  canonical requestId c hGet := by
    obtain ⟨hQueued, first, hFirst, hKey⟩ := h.canonical requestId c hGet
    refine ⟨hQueued, first, ?_, hKey⟩
    rw [List.getElem?_append_left (List.getElem?_eq_some_iff.mp hFirst).1, hFirst]
  fresh other hOther hGet := by
    rcases List.mem_append.mp hOther with hOld | hNew
    · exact h.fresh other hOld hGet
    · obtain rfl := List.mem_singleton.mp hNew
      exact hFresh hGet

theorem Scanned.enqueue (h : v.Scanned m members before scan)
    (hMembers : members = before ++ member :: rest)
    (hNew : p.looksUpFirst = true → v.record m (p.requestId member.command) = none) :
    v.Scanned m members (before ++ [member]) (scan.enqueue p members member) := by
  have hHere : members[before.length]? = some member := by simp [hMembers]
  unfold Scan.enqueue classifyPendingRequest
  rw [h.aliases]
  cases hGet : Assoc.get scan.canonicalByRequest (p.requestId member.command) with
  | none =>
    dsimp only
    have hFirst : ∀ earlier ∈ before,
        p.requestId member.command ≠ p.requestId earlier.command := by
      intro earlier hEarlier hSame
      obtain ⟨hLooks, hSome⟩ := h.fresh earlier hEarlier (hSame ▸ hGet)
      rw [← hSame, hNew hLooks] at hSome
      cases hSome
    have hSelf : p.firstOf members member = some member := by
      rw [hMembers]
      exact firstOf_of_new hFirst
    have hResult : (scan.results ++ [none])[before.length]? = some none := by
      rw [← h.results]
      exact List.getElem?_concat_length
    have hAliasNone : (scan.aliases ++ [none])[before.length]? = some none := by
      rw [← h.aliases]
      exact List.getElem?_concat_length
    refine ⟨by simp [h.aliases], by simp [h.results], fun i other hOther => ?_, by simp [h.short],
      fun i hi => ?_, ?_, ?_, fun requestId c hFound => ?_, fun other hOther hFound => ?_⟩
    · by_cases hi : i < before.length
      · rw [List.getElem?_append_left hi] at hOther
        exact (h.placed i other hOther).grow (List.prefix_append _ _) (List.prefix_append _ _)
          (List.subset_append_left _ _)
      · have hSome := (List.getElem?_eq_some_iff.mp hOther).1
        rw [List.length_append, List.length_singleton] at hSome
        obtain rfl : i = before.length := by omega
        exact .queued (List.mem_append_right _ List.mem_cons_self) hAliasNone
    · rcases List.mem_append.mp hi with hOld | hLast
      · obtain ⟨hOldResult, hOldAlias, other, hOther, hRest⟩ := h.queued i hOld
        have hLength := (List.getElem?_eq_some_iff.mp hOther).1
        refine ⟨?_, ?_, other, ?_, hRest⟩
        · rw [List.getElem?_append_left (by rw [h.results]; exact hLength), hOldResult]
        · rw [List.getElem?_append_left (by rw [h.aliases]; exact hLength), hOldAlias]
        · rw [List.getElem?_append_left hLength, hOther]
      · obtain rfl := List.mem_singleton.mp hLast
        exact ⟨hResult, hAliasNone, member, List.getElem?_concat_length, hSelf, hNew⟩
    · rw [pick_append, List.map_append]
      refine List.nodup_append.mpr ⟨h.distinct, ?_, ?_⟩
      · rw [pick_cons hHere]
        exact List.nodup_singleton _
      · rw [pick_cons hHere]
        intro key hKey other hOther
        obtain ⟨earlier, hEarlier, rfl⟩ := List.mem_map.mp hKey
        obtain ⟨i, hi, hMember⟩ := mem_pick.mp hEarlier
        obtain ⟨-, -, earlier', hBefore, -⟩ := h.queued i hi
        have hLength := (List.getElem?_eq_some_iff.mp hBefore).1
        rw [hMembers, List.getElem?_append_left hLength] at hMember
        rw [List.mem_singleton.mp hOther]
        exact (hFirst earlier (List.mem_of_getElem? hMember)).symm
    · rw [pick_append, Works.execAll_append, Works.execAll_append, h.journal, pick_cons hHere]
      rfl
    · rw [Assoc.get] at hFound
      split at hFound
      · rename_i hKey
        obtain rfl := Option.some.inj hFound
        exact ⟨List.mem_append_right _ List.mem_cons_self, member, List.getElem?_concat_length,
          hKey.symm⟩
      · obtain ⟨hQueued, first, hOld, hKey⟩ := h.canonical requestId c hFound
        refine ⟨List.mem_append_left _ hQueued, first, ?_, hKey⟩
        rw [List.getElem?_append_left (List.getElem?_eq_some_iff.mp hOld).1, hOld]
    · rw [Assoc.get] at hFound
      split at hFound
      · cases hFound
      · rename_i hKey
        rcases List.mem_append.mp hOther with hOld | hLast
        · exact h.fresh other hOld hFound
        · obtain rfl := List.mem_singleton.mp hLast
          exact absurd rfl hKey
  | some c =>
    obtain ⟨hQueued, first, hFirst, hKey⟩ := h.canonical _ _ hGet
    have hLength := (List.getElem?_eq_some_iff.mp hFirst).1
    have hMember : members[c]? = some first := by
      rw [hMembers, List.getElem?_append_left hLength, hFirst]
    obtain ⟨-, -, first', hFirst', hIsFirst, -⟩ := h.queued c hQueued
    obtain rfl : first = first' := Option.some.inj (hFirst.symm.trans hFirst')
    have hFirstOf : p.firstOf members member = some first := by
      rw [firstOf_congr hKey, hIsFirst]
    have hEarlier : ∃ earlier ∈ before, p.requestId member.command = p.requestId earlier.command :=
      ⟨first, List.mem_of_getElem? hFirst, hKey.symm⟩
    have hSet : Assoc.get scan.canonicalByRequest (p.requestId member.command) ≠ none := by
      rw [hGet]
      exact Option.some_ne_none c
    have hAlias : ∀ x : Option Nat, (scan.aliases ++ [x])[before.length]? = some x := by
      intro x
      rw [← h.aliases]
      exact List.getElem?_concat_length
    dsimp only
    rw [hMember, Option.any_some]
    by_cases hPayload : first.payload = member.payload
    · rw [if_pos (decide_eq_true hPayload)]
      dsimp only
      exact h.skip (.copied c first (hAlias _) hQueued hMember hFirstOf hKey hPayload) (.inr hEarlier)
        fun hNone => absurd hNone hSet
    · rw [if_neg (by simpa using hPayload)]
      dsimp only
      have hResult : ∀ x : Option (Except NodeError (MutationOutcome R)),
          (scan.results ++ [x])[before.length]? = some x := by
        intro x
        rw [← h.results]
        exact List.getElem?_concat_length
      exact h.skip (.clash _ (hAlias _) (hResult _) ⟨first, hFirstOf, hPayload, hNew⟩)
        (.inr hEarlier) fun hNone => absurd hNone hSet

theorem Scanned.add (h : v.Scanned m members before scan) (hLaws : v.Lawful) (hGood : v.Good m n)
    (hFits : v.Fits member) (hMembers : members = before ++ member :: rest) :
    v.Scanned m members (before ++ [member]) (scan.add p m members member) := by
  unfold Scan.add
  by_cases hFirst : p.looksUpFirst = true
  · rw [if_pos hFirst]
    have hResult : ∀ x : Option (Except NodeError (MutationOutcome R)),
        (scan.results ++ [x])[before.length]? = some x := by
      intro x
      rw [← h.results]
      exact List.getElem?_concat_length
    have hAlias : (scan.aliases ++ [none])[before.length]? = some none := by
      rw [← h.aliases]
      exact List.getElem?_concat_length
    by_cases hSome : (v.record m (p.requestId member.command)).isSome
    · obtain ⟨outcome, hCheck, hAnswered⟩ | ⟨error, hCheck, hAnswered⟩ :=
        hLaws.check_some hGood hFits hSome
      · rw [hCheck]
        exact h.skip (.looked _ hAlias (hResult _) hAnswered hFirst) (.inl hSome)
          fun _ => ⟨hFirst, hSome⟩
      · rw [hCheck]
        exact h.skip (.looked _ hAlias (hResult _) hAnswered hFirst) (.inl hSome)
          fun _ => ⟨hFirst, hSome⟩
    · have hNone := Option.not_isSome_iff_eq_none.mp hSome
      rw [hLaws.check_none hGood hFits hNone]
      exact h.enqueue hMembers fun _ => hNone
  · rw [if_neg hFirst]
    exact h.enqueue hMembers fun hLooks => absurd hLooks hFirst

theorem Lawful.scanned (h : v.Lawful) (hGood : v.Good m n)
    (hFits : ∀ member ∈ members, v.Fits member) :
    v.Scanned m members members (p.scan m members) := by
  have hFrom : ∀ rest before scan, members = before ++ rest → v.Scanned m members before scan →
      v.Scanned m members members (rest.foldl (Scan.add p m members) scan) := by
    intro rest
    induction rest with
    | nil =>
      intro before scan hMembers hScan
      rw [hMembers, List.append_nil] at hScan ⊢
      exact hScan
    | cons member rest ih =>
      intro before scan hMembers hScan
      have hMember : member ∈ members := hMembers ▸ List.mem_append_right _ List.mem_cons_self
      refine ih (before ++ [member]) _ ?_ (hScan.add h hGood (hFits member hMember) hMembers)
      rw [hMembers, List.append_assoc, List.singleton_append]
  refine hFrom members [] _ rfl ⟨rfl, rfl, ?_, Nat.le_refl _, ?_, List.nodup_nil, rfl, ?_, ?_⟩
  · intro i member hMember
    cases hMember
  · intro i hi
    cases hi
  · intro requestId c hGet
    cases hGet
  · intro member hMember
    cases hMember

def unrecorded (v : ProfileView p D) (m : M) (members : List (ProfileMember C)) (index : Nat) : Bool :=
  members[index]?.any fun member => (v.record m (p.requestId member.command)).isNone

theorem unrecorded_of {i : Nat} (h : members[i]? = some member) :
    v.unrecorded m members i = (v.record m (p.requestId member.command)).isNone := by
  rw [unrecorded, h, Option.any_some]

theorem record_of_unrecorded {i : Nat} (h : v.unrecorded m members i = true) :
    ∃ member, members[i]? = some member ∧ v.record m (p.requestId member.command) = none := by
  cases hMember : members[i]? with
  | none =>
    rw [unrecorded, hMember] at h
    cases h
  | some member =>
    rw [unrecorded_of hMember] at h
    exact ⟨member, rfl, Option.isNone_iff_eq_none.mp h⟩

structure Settled (v : ProfileView p D) (members : List (ProfileMember C)) (indices : List Nat)
    (batch batch' : ProfileBatch M R) : Prop where
  node : batch'.node = batch.node
  pending : batch'.pending =
    batch.pending ++ indices.filter (v.unrecorded batch.node.machine members)
  length : batch'.results.length = batch.results.length
  kept : ∀ i, (i ∈ indices → v.unrecorded batch.node.machine members i = true) →
    batch'.results[i]? = batch.results[i]?
  answered : ∀ i ∈ indices, v.unrecorded batch.node.machine members i = false →
    i < batch.results.length → ∃ member answer, members[i]? = some member ∧
      batch'.results[i]? = some (some answer) ∧ v.Answered batch.node.machine member answer

theorem Settled.answer {batch batch' : ProfileBatch M R} {index : Nat} {indices : List Nat}
    {answer : Except NodeError (MutationOutcome R)}
    (h : v.Settled members indices (batch.answer index answer) batch')
    (hMember : members[index]? = some member) (hAnswered : v.Answered batch.node.machine member answer)
    (hRecorded : v.unrecorded batch.node.machine members index = false) :
    v.Settled members (index :: indices) batch batch' where
  node := h.node
  pending := by
    rw [h.pending, List.filter_cons_of_neg (by rw [hRecorded]; decide)]
    rfl
  length := h.length.trans List.length_set
  kept i hKept := by
    rw [h.kept i fun hIn => hKept (List.mem_cons_of_mem _ hIn)]
    refine List.getElem?_set_ne fun hSame => ?_
    have hNot := hKept (hSame ▸ List.mem_cons_self)
    rw [← hSame, hRecorded] at hNot
    cases hNot
  answered i hIn hHere hLength := by
    by_cases hRest : i ∈ indices
    · exact h.answered i hRest hHere (hLength.trans_eq List.length_set.symm)
    · obtain rfl := (List.mem_cons.mp hIn).resolve_right hRest
      refine ⟨member, answer, hMember, ?_, hAnswered⟩
      rw [h.kept i fun hIn => absurd hIn hRest]
      exact List.getElem?_set_self hLength

theorem Lawful.settle (h : v.Lawful) (hFits : ∀ member ∈ members, v.Fits member) {indices : List Nat}
    (hIndices : ∀ i ∈ indices, ∃ member, members[i]? = some member) (batch : ProfileBatch M R)
    (hGood : v.Good batch.node.machine n) :
    v.Settled members indices batch (batch.settle p members indices) := by
  induction indices generalizing batch with
  | nil =>
    exact ⟨rfl, (List.append_nil _).symm, rfl, fun _ _ => rfl, fun _ hIn => nomatch hIn⟩
  | cons index indices ih =>
    obtain ⟨member, hMember⟩ := hIndices index List.mem_cons_self
    have hRest : ∀ i ∈ indices, ∃ member, members[i]? = some member :=
      fun i hi => hIndices i (List.mem_cons_of_mem _ hi)
    have hMemberFits := hFits member (List.mem_of_getElem? hMember)
    simp only [ProfileBatch.settle, hMember]
    by_cases hSome : (v.record batch.node.machine (p.requestId member.command)).isSome
    · have hRecorded : v.unrecorded batch.node.machine members index = false := by
        rw [unrecorded_of hMember, ← Option.not_isSome, hSome]
        rfl
      obtain ⟨outcome, hCheck, hAnswered⟩ | ⟨error, hCheck, hAnswered⟩ :=
        h.check_some hGood hMemberFits hSome
      · rw [hCheck]
        exact (ih hRest (batch.answer index (.ok outcome)) hGood).answer hMember hAnswered hRecorded
      · rw [hCheck]
        exact (ih hRest (batch.answer index (.error error)) hGood).answer hMember hAnswered hRecorded
    · have hNone := Option.not_isSome_iff_eq_none.mp hSome
      have hMissing : v.unrecorded batch.node.machine members index = true := by
        rw [unrecorded_of hMember, hNone]
        rfl
      rw [h.check_none hGood hMemberFits hNone]
      have hLater := ih hRest { batch with pending := batch.pending ++ [index] } hGood
      refine ⟨hLater.node, ?_, hLater.length, fun i hKept => ?_, fun i hIn hHere hLength => ?_⟩
      · rw [hLater.pending, List.filter_cons_of_pos hMissing, List.append_assoc]
        rfl
      · exact hLater.kept i fun hIn => hKept (List.mem_cons_of_mem _ hIn)
      · rcases List.mem_cons.mp hIn with rfl | hTail
        · cases hHere.symm.trans hMissing
        · exact hLater.answered i hTail hHere hLength

end ProfileView

end Rhiza.Node
