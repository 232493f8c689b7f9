import TextColumns.Regex.Registry
import Mathlib.Data.List.Basic

namespace TextColumns

section Lookup

variable {α β : Type*} [DecidableEq α]

theorem lookup_cons_eq_ite (entry : α × β) (entries : List (α × β)) (key : α) :
    (entry :: entries).lookup key =
      if key = entry.1 then some entry.2 else entries.lookup key := by
  obtain ⟨first, value⟩ := entry
  rw [List.lookup_cons]
  by_cases hkey : key = first
  · rw [beq_iff_eq.mpr hkey, if_pos hkey]
  · rw [beq_eq_false_iff_ne.mpr hkey, if_neg hkey]

theorem lookup_filter_ne (entries : List (α × β)) (dropped key : α) :
    (entries.filter (·.1 != dropped)).lookup key =
      if key = dropped then none else entries.lookup key := by
  induction entries with
  | nil => simp
  | cons entry entries induction =>
      by_cases hentry : entry.1 = dropped
      · rw [List.filter_cons_of_neg (by simpa using hentry), induction, lookup_cons_eq_ite]
        split_ifs <;> simp_all
      · rw [List.filter_cons_of_pos (by simpa using hentry), lookup_cons_eq_ite,
          lookup_cons_eq_ite, induction]
        split_ifs <;> simp_all

end Lookup

namespace Regex

variable {pattern : String} {flags : Pattern.Flags} {regex : Regex}

theorem key_of_compile (hcompile : compile pattern flags = .ok regex) :
    regex.pattern = pattern ∧ regex.flags = flags := by
  unfold compile at hcompile
  split at hcompile
  · cases hcompile
  · cases hcompile
    exact ⟨rfl, rfl⟩

end Regex

namespace Registry

open Pattern (Flags)

variable {registry : Registry} {key : PatternKey} {handle : Nat} {regex : Regex}

@[simp] theorem handle?_empty (key : PatternKey) : empty.handle? key = none :=
  rfl

@[simp] theorem regex?_empty (handle : Nat) : empty.regex? handle = none :=
  rfl

theorem insert_of_some (hhandle : registry.handle? key = some handle) (regex : Regex) :
    registry.insert key regex = (handle, registry) := by
  simp [insert, hhandle]

theorem insert_of_none (hhandle : registry.handle? key = none) (regex : Regex) :
    registry.insert key regex =
      (registry.next,
        ⟨Word.wrap (registry.next + 1), (key, registry.next) :: registry.handles,
          (registry.next, regex) :: registry.programs⟩) := by
  simp [insert, hhandle]

theorem handle?_insert (hhandle : registry.handle? key = none) (regex : Regex)
    (other : PatternKey) :
    (registry.insert key regex).2.handle? other =
      if other = key then some registry.next else registry.handle? other := by
  rw [insert_of_none hhandle]
  exact lookup_cons_eq_ite ..

theorem regex?_insert (hhandle : registry.handle? key = none) (regex : Regex) (other : Nat) :
    (registry.insert key regex).2.regex? other =
      if other = registry.next then some regex else registry.regex? other := by
  rw [insert_of_none hhandle]
  exact lookup_cons_eq_ite ..

theorem release_of_none (hregex : registry.regex? handle = none) :
    registry.release handle = (false, registry) := by
  simp [release, hregex]

section Release

variable (hregex : registry.regex? handle = some regex)

include hregex

theorem release_of_some :
    registry.release handle =
      (true,
        ⟨registry.next, registry.handles.filter (·.1 != ⟨regex.pattern, regex.flags⟩),
          registry.programs.filter (·.1 != handle)⟩) := by
  simp [release, hregex]

theorem handle?_release (other : PatternKey) :
    (registry.release handle).2.handle? other =
      if other = ⟨regex.pattern, regex.flags⟩ then none else registry.handle? other := by
  rw [release_of_some hregex]
  exact lookup_filter_ne ..

theorem regex?_release (other : Nat) :
    (registry.release handle).2.regex? other =
      if other = handle then none else registry.regex? other := by
  rw [release_of_some hregex]
  exact lookup_filter_ne ..

end Release

theorem release_fst_iff :
    (registry.release handle).1 = true ↔ ∃ regex, registry.regex? handle = some regex := by
  obtain hregex | ⟨regex, hregex⟩ := Option.eq_none_or_eq_some (registry.regex? handle)
  · simp [release_of_none, hregex]
  · simp [release_of_some hregex, hregex]

theorem get_of_some (hregex : registry.regex? handle = some regex) :
    registry.get handle = .ok regex := by
  simp [get, hregex]

theorem get_of_none (hregex : registry.regex? handle = none) :
    registry.get handle = .error (.unknownPattern handle) := by
  simp [get, hregex]

def Compiled (registry : Registry) : Prop :=
  ∀ handle regex, registry.regex? handle = some regex →
    ∃ pattern flags, Regex.compile pattern flags = .ok regex

theorem compiled_empty : empty.Compiled := by
  intro handle regex hregex
  rw [regex?_empty] at hregex
  cases hregex

theorem Compiled.insert (hregistry : registry.Compiled) {pattern : String} {flags : Flags}
    (hcompile : Regex.compile pattern flags = .ok regex) (key : PatternKey) :
    (registry.insert key regex).2.Compiled := by
  intro handle other hother
  cases hhandle : registry.handle? key with
  | some known =>
      rw [insert_of_some hhandle] at hother
      exact hregistry handle other hother
  | none =>
      rw [regex?_insert hhandle] at hother
      split at hother
      · obtain rfl := Option.some.inj hother
        exact ⟨pattern, flags, hcompile⟩
      · exact hregistry handle other hother

theorem Compiled.register (hregistry : registry.Compiled) {pattern : String} {flags : Flags}
    {registered : Nat × Registry} (hregister : registry.register pattern flags = .ok registered) :
    registered.2.Compiled := by
  revert hregister
  fun_cases Registry.register registry pattern flags with
  | case1 handle hknown =>
      intro hregister
      obtain rfl := Except.ok.inj hregister
      exact hregistry
  | case2 => intro hregister; cases hregister
  | case3 hunknown regex hcompile =>
      intro hregister
      obtain rfl := Except.ok.inj hregister
      exact hregistry.insert hcompile _

theorem Compiled.release (hregistry : registry.Compiled) (handle : Nat) :
    (registry.release handle).2.Compiled := by
  intro other found hfound
  cases hregex : registry.regex? handle with
  | none =>
      rw [release_of_none hregex] at hfound
      exact hregistry other found hfound
  | some regex =>
      rw [regex?_release hregex] at hfound
      split at hfound
      · cases hfound
      · exact hregistry other found hfound

end Registry

end TextColumns
