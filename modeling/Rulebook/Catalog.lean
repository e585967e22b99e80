/-!
# Catalogs

Finite maps that remember the order in which their keys came in. Writing to a key that is present
changes its entry where it stands; a new key goes to the end.
-/

set_option autoImplicit false

namespace Rulebook

/-- A finite map in order of arrival. -/
abbrev Catalog (κ α : Type) := List (κ × α)

namespace Catalog

variable {κ α : Type} [DecidableEq κ]

/-- The entry of a key. -/
def get? : Catalog κ α → κ → Option α
  | [], _ => none
  | (k', a) :: rest, k => if k' = k then some a else get? rest k

/-- Changes the entry of a key where it stands, or makes one at the end. -/
def alter (f : Option α → α) : Catalog κ α → κ → Catalog κ α
  | [], k => [(k, f none)]
  | (k', a) :: rest, k =>
    if k' = k then (k', f (some a)) :: rest else (k', a) :: alter f rest k

/-- Writes the entry of a key. -/
def put (c : Catalog κ α) (k : κ) (a : α) : Catalog κ α := c.alter (fun _ => a) k

/-- The key has an entry. -/
def contains (c : Catalog κ α) (k : κ) : Bool := (c.get? k).isSome

/-- The keys in order. -/
def keys (c : Catalog κ α) : List κ := c.map (·.1)

/-- The catalog of entries written one after the other. -/
def ofList (entries : List (κ × α)) : Catalog κ α :=
  entries.foldl (fun c (k, a) => c.put k a) []

@[simp] theorem get?_nil (k : κ) : get? ([] : Catalog κ α) k = none := rfl

/-- What a changed catalog holds: the changed entry at the key, all else as before. -/
theorem get?_alter (f : Option α → α) (c : Catalog κ α) (k k' : κ) :
    (c.alter f k).get? k' = if k = k' then some (f (c.get? k)) else c.get? k' := by
  induction c with
  | nil => by_cases h : k = k' <;> simp [alter, get?, h]
  | cons e rest ih =>
    obtain ⟨k₀, a⟩ := e
    by_cases h : k₀ = k <;> by_cases h' : k₀ = k' <;> by_cases hk : k = k' <;>
      simp_all [alter, get?]

/-- The keys of a changed catalog: those before, and the key at the end if it was new. -/
theorem keys_alter (f : Option α → α) (c : Catalog κ α) (k : κ) :
    (c.alter f k).keys = if k ∈ c.keys then c.keys else c.keys ++ [k] := by
  induction c with
  | nil => simp [alter, keys]
  | cons e rest ih =>
    obtain ⟨k₀, a⟩ := e
    by_cases h : k₀ = k
    · simp [alter, keys, h]
    · have hk : k ≠ k₀ := fun e => h e.symm
      by_cases hm : k ∈ keys rest <;> simp_all [alter, keys]

/-- Keys stand in the order in which each came in for the first time. -/
theorem keys_alter_eraseDups [BEq κ] [LawfulBEq κ] {f : Option α → α} {c : Catalog κ α}
    {ks : List κ} (h : c.keys = ks.eraseDups) (k : κ) :
    (c.alter f k).keys = (ks ++ [k]).eraseDups := by
  rw [keys_alter, List.eraseDups_append, h]
  by_cases hk : k ∈ ks <;> simp [List.removeAll, hk, List.eraseDups_cons]

/-- Changing an entry repeats no key. -/
theorem nodup_keys_alter {f : Option α → α} {c : Catalog κ α} {k : κ} (h : c.keys.Nodup) :
    (c.alter f k).keys.Nodup := by
  rw [keys_alter]
  split
  · exact h
  · rename_i hnew
    refine List.nodup_append.2 ⟨h, by simp, fun a ha b hb hab => hnew ?_⟩
    rwa [← List.mem_singleton.1 hb, ← hab]

/-- The entry of a key is listed. -/
theorem mem_of_get? {c : Catalog κ α} {k : κ} {a : α} (h : c.get? k = some a) : (k, a) ∈ c := by
  induction c with
  | nil => cases h
  | cons e rest ih =>
    obtain ⟨k', b⟩ := e
    by_cases hk : k' = k
    · rw [get?, if_pos hk] at h
      cases h
      exact hk ▸ .head _
    · rw [get?, if_neg hk] at h
      exact .tail _ (ih h)

/-- Where no key is repeated, the entry of a key is the one that is listed. -/
theorem mem_iff_get? {c : Catalog κ α} (h : c.keys.Nodup) {k : κ} {a : α} :
    (k, a) ∈ c ↔ c.get? k = some a := by
  induction c with
  | nil => simp
  | cons e rest ih =>
    obtain ⟨k', b⟩ := e
    obtain ⟨hnew, hrest⟩ := List.nodup_cons.1 h
    by_cases hk : k' = k
    · have hout : (k, a) ∉ rest := fun hm => hnew (List.mem_map.2 ⟨_, hm, hk.symm⟩)
      simp [get?, hk, hout, eq_comm]
    · have hk' : k ≠ k' := fun e => hk e.symm
      simp [get?, hk, hk', ih hrest]

/-- A catalog in which no key is repeated is told by its keys and their entries. -/
theorem eq_map_keys {c : Catalog κ α} (h : c.keys.Nodup) (default : α) :
    c = c.keys.map fun k => (k, (c.get? k).getD default) := by
  rw [keys, List.map_map]
  refine (List.map_id c).symm.trans (List.map_congr_left fun e he => ?_)
  simp only [Function.comp_apply, (mem_iff_get? h).1 he]
  rfl

/-- Catalogs with the same entries differ in their order only. -/
theorem perm_of_get?_eq {c d : Catalog κ α} (hc : c.keys.Nodup) (hd : d.keys.Nodup)
    (h : ∀ k, c.get? k = d.get? k) : c.Perm d := by
  have nodup {c : Catalog κ α} (h : c.keys.Nodup) : List.Nodup c :=
    List.Pairwise.of_map Prod.fst (fun _ _ hne heq => hne (congrArg Prod.fst heq)) h
  refine (List.perm_ext_iff_of_nodup (nodup hc) (nodup hd)).2 fun ⟨k, a⟩ => ?_
  rw [mem_iff_get? hc, mem_iff_get? hd, h]

end Catalog

end Rulebook
