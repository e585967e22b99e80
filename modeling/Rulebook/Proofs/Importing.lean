import Rulebook.Library

/-!
# What paths lead to

A path is the name of a module, a point, and the name of a member that has no point in it
(`World.Provides`). Whatever modules there are, loading a path succeeds if there is a module of that
name with a member of that name, and comes to the member (`World.load_eq_ok`).
-/

set_option autoImplicit false

namespace Rulebook

/-- A path with a point splits at its last one. -/
theorem splitPath?_eq_some {path module name : String} :
    splitPath? path = some (module, name) ↔
      path = module ++ "." ++ name ∧ '.' ∉ name.toList := by
  rw [splitPath?]
  constructor
  · intro h
    have hsplit := List.takeWhile_append_dropWhile (p := fun c => decide (c ≠ '.'))
      (l := path.toList.reverse)
    split at h
    · cases h
    · rename_i c rest hrest
      cases h
      have hc : c = '.' := by
        have hhead := List.head?_dropWhile_not (fun c => decide (c ≠ '.')) path.toList.reverse
        rw [hrest] at hhead
        simpa using hhead
      refine ⟨?_, fun hmem => ?_⟩
      · apply String.ext
        rw [hrest, hc] at hsplit
        simpa using (congrArg List.reverse hsplit).symm
      · have hall := List.all_eq_true.1 (List.all_takeWhile (p := fun c => decide (c ≠ '.'))
          (l := path.toList.reverse))
        simpa using hall '.' (by simpa using hmem)
  · rintro ⟨rfl, hname⟩
    have hall : ∀ c ∈ name.toList.reverse, decide (c ≠ '.') = true := by
      intro c hc
      simpa using fun (h : c = '.') => hname (h ▸ List.mem_reverse.1 hc)
    have hletters : (module ++ "." ++ name).toList.reverse =
        name.toList.reverse ++ '.' :: module.toList.reverse := by simp
    rw [hletters, List.dropWhile_append_of_pos hall, List.takeWhile_append_of_pos hall]
    simp

namespace World

variable {w : World} {path : String} {v : Value}

/-- The path leads to the value: before its last point it names a module, and the module has the
value under the name behind the point. A name that begins with a point names no module by itself. -/
def Provides (w : World) (path : String) (v : Value) : Prop :=
  ∃ module name m, path = module ++ "." ++ name ∧ '.' ∉ name.toList ∧
    (∃ c ∈ module.toList.head?, c ≠ '.') ∧ w.modules.get? module = some m ∧
      m.members.get? name = some v

theorem findModule_eq_ok {name : String} {m : Module} : w.findModule name = .ok m ↔
    (∃ c ∈ name.toList.head?, c ≠ '.') ∧ w.modules.get? name = some m := by
  unfold findModule
  split
  · rename_i hnil
    simp [hnil]
  · rename_i hpoint
    simp [hpoint]
  · rename_i hnil hpoint
    have hhead : ∃ c ∈ name.toList.head?, c ≠ '.' := by
      cases hletters : name.toList with
      | nil => exact absurd hletters hnil
      | cons c rest => exact ⟨c, rfl, fun hc => hpoint rest (hc ▸ hletters)⟩
    rw [and_iff_right hhead]
    cases w.modules.get? name <;> simp [pure, Except.pure]

/-- What a path leads to is all that it can be loaded as. -/
theorem load_eq_ok {reference : Value} : w.load reference = .ok v ↔
    ∃ path, w.heap.text? reference = some path ∧ w.Provides path v := by
  constructor
  · intro h
    unfold load at h
    split at h
    · cases h
    · rename_i module name hpath
      obtain ⟨path, htext, hsplit⟩ := Option.bind_eq_some_iff.1 hpath
      obtain ⟨hpath, hname⟩ := splitPath?_eq_some.1 hsplit
      split at h
      · cases h
      · cases h
      · rename_i m hm
        obtain ⟨hhead, hmodule⟩ := findModule_eq_ok.1 hm
        split at h
        · rename_i u hu
          cases h
          exact ⟨path, htext, module, name, m, hpath, hname, hhead, hmodule, hu⟩
        · cases h
  · rintro ⟨path, htext, module, name, m, hpath, hname, hhead, hmodule, hv⟩
    have hsplit := splitPath?_eq_some.2 ⟨hpath, hname⟩
    have hm := findModule_eq_ok.2 ⟨hhead, hmodule⟩
    simp only [load, htext, Option.bind_some, hsplit, hm, hv]
    rfl

end World

end Rulebook
