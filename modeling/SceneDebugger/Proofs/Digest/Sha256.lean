import SceneDebugger.Digest.Sha256
import SceneDebugger.Text.CharacterClass

/-!
# SceneDebugger.Proofs.Digest.Sha256 — written hashes

* `Sha256.trim_hex`: a written hash has no white space around it.
-/

namespace SceneDebugger

theorem exists_digitChar {base : Nat} (hbase : 1 < base) (n : Nat) :
    ∀ c ∈ Nat.toDigits base n, ∃ k < base, c = Nat.digitChar k := by
  induction n using Nat.strongRecOn with
  | ind n ih =>
    intro c hc
    by_cases hsmall : n < base
    · rw [Nat.toDigits_of_lt_base hsmall] at hc
      exact ⟨n, hsmall, List.mem_singleton.mp hc⟩
    · rw [Nat.toDigits_of_base_le hbase (by omega)] at hc
      obtain hc | hc := List.mem_append.mp hc
      · exact ih (n / base) (Nat.div_lt_self (by omega) hbase) c hc
      · exact ⟨n % base, Nat.mod_lt _ (by omega), List.mem_singleton.mp hc⟩

theorem trim_of_not_space {cs : List Char} (h : ∀ c ∈ cs, Text.isSpace c = false) :
    Text.trim cs = cs := by
  have hkeep : ∀ ds : List Char, (∀ c ∈ ds, Text.isSpace c = false) →
      ds.dropWhile Text.isSpace = ds := by
    intro ds hds
    cases ds with
    | nil => rfl
    | cons d rest => rw [List.dropWhile_cons, hds d List.mem_cons_self]; rfl
  rw [Text.trim, hkeep cs h, hkeep cs.reverse fun c hc => h c (List.mem_reverse.mp hc),
    List.reverse_reverse]

/-- A hash has no white space around it. -/
theorem Sha256.trim_hex (bytes : ByteArray) :
    String.ofList (Text.trim (hex bytes).toList) = hex bytes := by
  have hdigit : ∀ k < 16, Text.isSpace (Nat.digitChar k) = false := by decide
  have hplain : ∀ c ∈ (hex bytes).toList, Text.isSpace c = false := by
    intro c hc
    rw [hex, hexOfBytes, String.toList_ofList] at hc
    obtain ⟨w, -, hc⟩ := List.mem_flatMap.mp hc
    obtain hc | hc := List.mem_append.mp hc
    · rw [List.eq_of_mem_replicate hc]
      decide
    · obtain ⟨k, hk, rfl⟩ := exists_digitChar (by decide) _ c hc
      exact hdigit k hk
  rw [trim_of_not_space hplain, String.ofList_toList]

end SceneDebugger
