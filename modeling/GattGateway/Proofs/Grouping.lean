import GattGateway.Keyed
import Mathlib.Data.List.Basic

/-!
# What entries of one key come to

Merging a row of entries leaves one entry for each key, in the order in which the keys appear, and
what it comes to depends on the entries of its own key only.
-/
namespace GattGateway

variable {α κ : Type} [DecidableEq κ] {key : α → κ} {merge : α → α → α}

/-- What entries of one key are merged to. -/
def merged (merge : α → α → α) : List α → Option α
  | [] => none
  | x :: xs => some (xs.foldl merge x)

theorem merged_concat {xs : List α} (x : α) (h : xs ≠ []) :
    merged merge (xs ++ [x]) = (merged merge xs).map (merge · x) := by
  cases xs with
  | nil => exact absurd rfl h
  | cons y ys => simp [merged]

/-- Entries of a key are found among entries that are made for each key of a list. -/
theorem find?_filterMap_key {f : κ → Option α} (hf : ∀ k x, f k = some x → key x = k)
    (ks : List κ) (k : κ) :
    (ks.filterMap f).find? (key · = k) = if k ∈ ks then f k else none := by
  induction ks with
  | nil => rfl
  | cons k' ks ih =>
    cases hk' : f k' with
    | none =>
      rw [List.filterMap_cons_none hk', ih]
      by_cases he : k = k'
      · subst k
        simp [hk']
      · simp [he]
    | some x =>
      have hx : key x = k' := hf k' x hk'
      rw [List.filterMap_cons_some hk']
      by_cases he : k = k'
      · subst k
        simp [hx, hk']
      · simp [hx, ih, he, Ne.symm he]

omit [DecidableEq κ] in
theorem map_key_filterMap {f : κ → Option α} (hf : ∀ k x, f k = some x → key x = k)
    (ks : List κ) : (ks.filterMap f).map key = ks.filter fun k => (f k).isSome := by
  induction ks with
  | nil => rfl
  | cons k ks ih =>
    cases hk : f k with
    | none => simp [hk, ih]
    | some x => simp [hk, ih, hf k x hk]

section

variable (hm : ∀ y x, key y = key x → key (merge y x) = key y)

include hm

/-- The first entry takes all of its key, and the rest goes to the others. -/
theorem foldl_upsert_cons (y : α) (ys xs : List α) :
    xs.foldl (upsert key merge) (y :: ys) =
      (xs.filter (key · = key y)).foldl merge y ::
        (xs.filter (key · ≠ key y)).foldl (upsert key merge) ys := by
  induction xs generalizing y ys with
  | nil => rfl
  | cons x xs ih =>
    by_cases h : key y = key x
    · simp [upsert, h, ih, hm y x h]
    · simp [upsert, h, Ne.symm h, ih]

/-- One entry for each key, in the order in which the keys appear, merged from all of its key. -/
theorem foldl_upsert (xs : List α) :
    xs.foldl (upsert key merge) [] =
      (xs.map key).eraseDups.filterMap fun k => merged merge (xs.filter (key · = k)) := by
  match xs with
  | [] => rfl
  | x :: xs =>
    -- The entries of other keys than the first are merged by themselves.
    have ih := foldl_upsert (xs.filter (key · ≠ key x))
    have hkeys : (xs.map key).filter (fun k => !k == key x) =
        (xs.filter (key · ≠ key x)).map key := by
      rw [List.filter_map]
      congr 2
      funext y
      by_cases h : key y = key x <;> simp [h]
    rw [List.foldl_cons, upsert, foldl_upsert_cons hm, ih, List.map_cons, List.eraseDups_cons,
      hkeys, List.filterMap_cons]
    simp only [List.filter_cons, decide_true, if_true, merged]
    congr 1
    refine List.filterMap_congr fun k hk => ?_
    have hk : k ≠ key x := by
      obtain ⟨y, hy, rfl⟩ := List.mem_map.1 (List.mem_eraseDups.1 hk)
      simpa using (List.mem_filter.1 hy).2
    rw [if_neg (by simpa using Ne.symm hk), List.filter_filter]
    congr 2
    funext y
    by_cases h : key y = k <;> simp [h, hk]
termination_by xs.length
decreasing_by
  have := List.length_filter_le (key · ≠ key x) xs
  simp only [List.length_cons]
  omega

theorem key_merged {xs : List α} {k : κ} {x : α}
    (h : merged merge (xs.filter (key · = k)) = some x) : key x = k := by
  have fold (ys : List α) (y : α) (hy : key y = k) (hys : ∀ z ∈ ys, key z = k) :
      key (ys.foldl merge y) = k := by
    induction ys generalizing y with
    | nil => exact hy
    | cons z ys ih =>
      have hz : key z = k := hys z List.mem_cons_self
      refine ih (merge y z) ?_ fun z hz => hys z (List.mem_cons_of_mem _ hz)
      rw [hm y z (hy.trans hz.symm), hy]
  have all : ∀ y ∈ xs.filter (key · = k), key y = k := by simp
  cases hx : xs.filter (key · = k) with
  | nil => simp [hx, merged] at h
  | cons y ys =>
    rw [hx] at h all
    obtain rfl := Option.some_inj.1 h
    exact fold ys y (all y List.mem_cons_self) fun z hz => all z (List.mem_cons_of_mem _ hz)

/-- What is found for a key is merged from all of its key. -/
theorem find?_foldl_upsert (xs : List α) (k : κ) :
    (xs.foldl (upsert key merge) []).find? (key · = k) =
      merged merge (xs.filter (key · = k)) := by
  rw [foldl_upsert hm, find?_filterMap_key fun k x h => key_merged hm h]
  split_ifs with hk
  · rfl
  · have absent : xs.filter (key · = k) = [] := by
      refine List.filter_eq_nil_iff.2 fun x hx he => hk ?_
      exact List.mem_eraseDups.2 (List.mem_map.2 ⟨x, hx, by simpa using he⟩)
    rw [absent, merged]

end

end GattGateway
