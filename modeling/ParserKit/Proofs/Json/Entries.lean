import Mathlib.Data.List.Nodup
import Mathlib.Data.List.Induction
import ParserKit.Proofs.Json.Grammar

namespace ParserKit.Json

variable {members entries entries' : List (String × Value)}

theorem eraseDups_append_singleton (keys : List String) (key : String) :
    (keys ++ [key]).eraseDups =
      if key ∈ keys then keys.eraseDups else keys.eraseDups ++ [key] := by
  rw [List.eraseDups_append]
  by_cases h : key ∈ keys
  · simp [List.removeAll, h]
  · simp [List.removeAll, h, List.eraseDups_cons]

theorem nodup_eraseDups (keys : List String) : keys.eraseDups.Nodup := by
  induction keys using List.reverseRecOn with
  | nil => exact List.nodup_nil
  | append_singleton keys key ih =>
    rw [eraseDups_append_singleton]
    split
    · exact ih
    · next h =>
      apply ih.append (List.nodup_singleton key)
      rw [List.disjoint_singleton, List.mem_eraseDups]
      exact h

theorem mem_insertEntry {key : String} {value : Value} {entry : String × Value}
    (nodup : (entries.map Prod.fst).Nodup) (h : entry ∈ Value.insertEntry key value entries) :
    entry = (key, value) ∨ (entry ∈ entries ∧ entry.1 ≠ key) := by
  induction entries with
  | nil => exact .inl (List.mem_singleton.1 h)
  | cons head entries ih =>
    obtain ⟨k, v⟩ := head
    rw [List.map_cons, List.nodup_cons] at nodup
    rw [Value.insertEntry] at h
    split at h
    · next hk =>
      subst hk
      rcases List.mem_cons.1 h with rfl | h
      · exact .inl rfl
      · refine .inr ⟨List.mem_cons_of_mem _ h, fun heq => nodup.1 ?_⟩
        exact List.mem_map.2 ⟨entry, h, heq⟩
    · next hk =>
      rcases List.mem_cons.1 h with rfl | h
      · exact .inr ⟨List.mem_cons_self, hk⟩
      · exact (ih nodup.2 h).imp_right (And.imp_left (List.mem_cons_of_mem _))

namespace Entries

theorem nil : Entries [] [] := ⟨rfl, fun _ h => absurd h List.not_mem_nil⟩

theorem append_singleton (h : Entries members entries) (key : String) (value : Value) :
    Entries (members ++ [(key, value)]) (Value.insertEntry key value entries) where
  keys := by
    rw [Value.keys_insertEntry, List.map_append, List.map_singleton, eraseDups_append_singleton,
      h.keys]
    simp only [List.mem_eraseDups]
  values entry hentry := by
    have nodup : (entries.map Prod.fst).Nodup := h.keys ▸ nodup_eraseDups _
    rcases mem_insertEntry nodup hentry with rfl | ⟨hmem, hne⟩
    · exact ⟨members, [], rfl, List.not_mem_nil⟩
    · obtain ⟨before, after, rfl, hafter⟩ := h.values entry hmem
      refine ⟨before, after ++ [(key, value)], by simp, ?_⟩
      rw [List.map_append, List.mem_append, List.map_singleton, List.mem_singleton]
      exact not_or.2 ⟨hafter, hne⟩

theorem foldl (members : List (String × Value)) :
    Entries members
      (members.foldl (fun acc (k, v) => Value.insertEntry k v acc) []) := by
  induction members using List.reverseRecOn with
  | nil => exact nil
  | append_singleton members member ih =>
    rw [List.foldl_append]
    exact ih.append_singleton member.1 member.2

theorem value_unique {key : String} {v v' : Value}
    {before before' after after' : List (String × Value)}
    (h : before ++ (key, v) :: after = before' ++ (key, v') :: after')
    (hafter : key ∉ after.map Prod.fst) (hafter' : key ∉ after'.map Prod.fst) : v = v' := by
  induction before generalizing before' with
  | nil =>
    cases before' with
    | nil => simp_all
    | cons _ before' =>
      rw [List.nil_append, List.cons_append] at h
      injection h with _ h
      exact absurd (by simp [h]) hafter
  | cons head before ih =>
    cases before' with
    | nil =>
      rw [List.nil_append, List.cons_append] at h
      injection h with _ h
      exact absurd (by simp [← h]) hafter'
    | cons _ before' =>
      injection h with _ h
      exact ih h

theorem unique (h : Entries members entries) (h' : Entries members entries') :
    entries = entries' := by
  have hkeys := h.keys.trans h'.keys.symm
  have hvalues := h.values
  have hvalues' := h'.values
  clear h h'
  induction entries generalizing entries' with
  | nil => exact (List.map_eq_nil_iff.1 hkeys.symm).symm
  | cons entry entries ih =>
    cases entries' with
    | nil => exact absurd hkeys (List.cons_ne_nil _ _)
    | cons entry' entries' =>
      obtain ⟨key, v⟩ := entry
      obtain ⟨key', v'⟩ := entry'
      rw [List.map_cons, List.map_cons] at hkeys
      injection hkeys with hkey hkeys
      subst hkey
      obtain ⟨before, after, hm, hafter⟩ := hvalues _ List.mem_cons_self
      obtain ⟨before', after', hm', hafter'⟩ := hvalues' _ List.mem_cons_self
      have hv : v = v' := value_unique (hm.symm.trans hm') hafter hafter'
      have hrest : entries = entries' := ih hkeys
        (fun e he => hvalues e (List.mem_cons_of_mem _ he))
        (fun e he => hvalues' e (List.mem_cons_of_mem _ he))
      rw [hv, hrest]

end Entries

theorem entries_iff : Entries members entries ↔ Value.ofEntries members = .dict entries := by
  constructor
  · intro h
    rw [Value.ofEntries, h.unique (.foldl members)]
  · intro h
    injection h with h
    exact h ▸ .foldl members

end ParserKit.Json
