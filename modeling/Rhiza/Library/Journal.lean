import Rhiza.Library.Once

/-! # Requests that are carried out on data

A job has a key, a mark and something to do. The first job with a key is carried
out, and its mark and its result are written down under the key. A later job with
the same key changes nothing.
-/

namespace Rhiza.Library

variable {ι κ ν ρ δ : Type} [DecidableEq κ]

structure Journal (κ ν ρ δ : Type) where
  data : δ
  done : κ → Option (ν × ρ)

/-- How jobs are read and carried out. -/
structure Works (ι κ ν ρ δ : Type) where
  key : ι → κ
  mark : ι → ν
  run : ι → δ → ρ × δ

namespace Works

variable (w : Works ι κ ν ρ δ)

def exec (l : Journal κ ν ρ δ) (job : ι) : Journal κ ν ρ δ :=
  match l.done (w.key job) with
  | some _ => l
  | none =>
    ⟨(w.run job l.data).2, remember l.done (w.key job, (w.mark job, (w.run job l.data).1))⟩

def execAll (l : Journal κ ν ρ δ) (jobs : List ι) : Journal κ ν ρ δ := jobs.foldl w.exec l

variable {w} {l : Journal κ ν ρ δ} {job : ι} {jobs : List ι} {key : κ} {entry : ν × ρ}

theorem exec_of_done (h : (l.done (w.key job)).isSome) : w.exec l job = l := by
  obtain ⟨entry, hDone⟩ := Option.isSome_iff_exists.mp h
  rw [exec, hDone]

theorem exec_of_new (h : l.done (w.key job) = none) : w.exec l job =
    ⟨(w.run job l.data).2, remember l.done (w.key job, (w.mark job, (w.run job l.data).1))⟩ := by
  rw [exec, h]

theorem done_exec : (w.exec l job).done key =
    if key = w.key job ∧ l.done key = none then some (w.mark job, (w.run job l.data).1)
    else l.done key := by
  cases hDone : l.done (w.key job) with
  | some entry =>
    rw [exec_of_done (hDone ▸ rfl), if_neg]
    rintro ⟨rfl, hNone⟩
    cases hDone.symm.trans hNone
  | none =>
    rw [exec_of_new hDone]
    by_cases hKey : key = w.key job
    · rw [if_pos ⟨hKey, hKey ▸ hDone⟩]
      exact if_pos hKey
    · rw [if_neg fun h => hKey h.1]
      exact if_neg hKey

theorem isSome_done_exec :
    ((w.exec l job).done key).isSome ↔ (l.done key).isSome ∨ key = w.key job := by
  rw [done_exec]
  by_cases hKey : key = w.key job
  · cases hDone : l.done key <;> simp [hKey]
  · simp [hKey]

theorem isSome_done_execAll : ((w.execAll l jobs).done key).isSome ↔
    (l.done key).isSome ∨ ∃ job ∈ jobs, key = w.key job := by
  induction jobs generalizing l with
  | nil => simp [execAll]
  | cons job jobs ih =>
    change ((w.execAll (w.exec l job) jobs).done key).isSome ↔ _
    rw [ih, isSome_done_exec]
    simp only [List.exists_mem_cons_iff, or_assoc]

theorem mark_done_execAll : ((w.execAll l jobs).done key).map (·.1) =
    ((l.done key).map (·.1)).or ((jobs.find? fun job => key = w.key job).map w.mark) := by
  induction jobs generalizing l with
  | nil => simp [execAll]
  | cons job jobs ih =>
    change ((w.execAll (w.exec l job) jobs).done key).map (·.1) = _
    rw [ih, done_exec]
    by_cases hKey : key = w.key job
    · have hFirst : (job :: jobs).find? (fun job => key = w.key job) = some job :=
        List.find?_cons_of_pos (decide_eq_true hKey)
      rw [hFirst]
      cases hDone : l.done key with
      | some entry => simp
      | none => simp [hKey]
    · have hLater : (job :: jobs).find? (fun job => key = w.key job) =
          jobs.find? fun job => key = w.key job :=
        List.find?_cons_of_neg (by simpa using hKey)
      rw [hLater, if_neg fun h => hKey h.1]

theorem execAll_append {more : List ι} :
    w.execAll l (jobs ++ more) = w.execAll (w.execAll l jobs) more :=
  List.foldl_append

theorem execAll_filter {needed : ι → Bool}
    (h : ∀ job ∈ jobs, needed job = false → (l.done (w.key job)).isSome) :
    w.execAll l (jobs.filter needed) = w.execAll l jobs := by
  induction jobs generalizing l with
  | nil => rfl
  | cons job jobs ih =>
    have hRest : ∀ other ∈ jobs, needed other = false → (l.done (w.key other)).isSome :=
      fun other hOther => h other (List.mem_cons_of_mem _ hOther)
    cases hNeeded : needed job with
    | true =>
      rw [List.filter_cons_of_pos hNeeded]
      exact ih fun other hOther hFalse => isSome_done_exec.mpr (.inl (hRest other hOther hFalse))
    | false =>
      rw [List.filter_cons_of_neg (by rw [hNeeded]; decide), ih hRest]
      change _ = w.execAll (w.exec l job) jobs
      rw [exec_of_done (h job List.mem_cons_self hNeeded)]

end Works

end Rhiza.Library
