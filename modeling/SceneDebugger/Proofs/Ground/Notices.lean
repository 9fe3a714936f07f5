import SceneDebugger.Proofs.Ground.Effects
import SceneDebugger.Proofs.Workspace.Notices

/-!
# SceneDebugger.Proofs.Ground.Notices — the queue follows what the game holds

Every operation of the game notifies (`Workspace.Notifies`): each is put together from files that enter
and leave, and from events that do not concern reloads.
-/

namespace SceneDebugger.Ground

open Workspace

variable {w : Workspace}

/-! ### Leaving places -/

theorem notifies_leave (hw : w.Named) (files : List String) :
    w.Notifies (files.foldl leaveGround w) := by
  induction files generalizing w with
  | nil => exact .refl w
  | cons file files ih =>
    exact (notifies_leaveGround hw file).trans (ih (updates_leaveGround hw file).named)

theorem notifies_releaseAll (next : Ground) (hw : w.Named) (files : List String) :
    w.Notifies (next.releaseAll w files) := by
  rw [releaseAll_eq]
  exact notifies_leave hw _

theorem notifies_start (g : Ground) (hw : w.Named) : w.Notifies (g.start w).2 :=
  (notifies_releaseAll _ hw _).trans (notifies_send _ rfl)

theorem notifies_quit (g : Ground) (hw : w.Named) : w.Notifies (g.quit w).2 :=
  (notifies_releaseAll _ hw _).trans (notifies_send _ rfl)

theorem notifies_changeMap (g : Ground) (hw : w.Named) : w.Notifies (g.changeMap w).2 :=
  (notifies_releaseAll _ hw _).trans (notifies_send _ rfl)

/-! ### Announcements -/

theorem notifies_announce (g : Ground) (w : Workspace) (hanger : Nat) :
    w.Notifies (g.announce w hanger).2 := by
  unfold announce
  dsimp only
  split
  · exact .refl w
  · split_ifs
    · exact .refl w
    · exact notifies_warn w _

theorem notifies_loadScene (g : Ground) (w : Workspace) (hanger : Nat) (name : String) :
    w.Notifies (g.loadScene w hanger name).2 := by
  unfold loadScene
  split_ifs
  · exact (notifies_announce _ w hanger).trans (notifies_send _ rfl)
  · exact notifies_warn w _

theorem notifies_loadTalk (g : Ground) (w : Workspace) (hanger : Nat) :
    w.Notifies (g.loadTalk w hanger).2 :=
  (notifies_announce g w _).trans (notifies_send _ rfl)

/-! ### Loading scripts -/

theorem notifies_enter (hw : w.Named) (file : String) : w.Notifies (enter w file) := by
  have hentered := notifies_enterGround hw file
  unfold enter
  split
  · next heq =>
    rw [heq] at hentered
    exact hentered
  · next heq =>
    rw [heq] at hentered
    exact hentered.trans (notifies_warn _ _)

theorem notifies_hashOf (w : Workspace) (file : String) : w.Notifies (hashOf w file).2 := by
  have hgot := notifies_get w file
  unfold hashOf Workspace.hash ask
  cases hget : w.get file with
  | mk answer v =>
    rw [hget] at hgot
    cases answer <;> exact hgot

theorem notifies_place (g : Ground) (hw : w.Named) (slot : Nat) (file : String) :
    w.Notifies (g.place w slot file).2 := by
  have hentered := updates_enter hw file
  have hread := (notifies_enter hw file).trans (notifies_hashOf (enter w file) file)
  obtain ⟨v, hhash, hv⟩ := hashOf_eq hentered.named file
  simp only [place, hhash] at hread ⊢
  refine Notifies.trans ?_ (notifies_send _ rfl)
  split
  · exact hread
  · next before _ => exact hread.trans (notifies_releaseAll _ hv.named [before.file])

theorem notifies_loadScript (g : Ground) (hw : w.Named) (file : String) :
    w.Notifies (g.loadScript w file).2 := by
  unfold loadScript
  dsimp only
  split_ifs
  · exact notifies_place _ hw _ file
  · exact notifies_warn w _

/-! ### Save states -/

theorem notifies_restoreScript (hw : w.Named) (stale : List String) (script : LoadedScript) :
    w.Notifies (restoreScript stale w script).2 := by
  have hentered := notifies_enterGround hw script.file
  have hnamed := (updates_enterGround hw script.file).named
  unfold restoreScript
  split
  · next heq =>
    rw [heq] at hentered
    exact hentered.trans (notifies_warn _ _)
  · next v heq =>
    rw [heq] at hentered hnamed
    have hread := hentered.trans (notifies_hashOf v script.file)
    obtain ⟨u, hhash, hu⟩ := hashOf_eq hnamed script.file
    simp only [hhash] at hread ⊢
    split_ifs
    · exact hread
    · have hmarked := hread.trans (notifies_markRestored hu.named script.file)
      split
      · next hresult =>
        rw [hresult] at hmarked
        exact hmarked
      · next hresult =>
        rw [hresult] at hmarked
        exact hmarked.trans (notifies_warn _ _)

theorem notifies_restoreScripts (hw : w.Named) (scripts : List LoadedScript) :
    w.Notifies (restoreScripts w scripts).2 := by
  induction scripts using List.reverseRecOn with
  | nil => exact .refl w
  | append_singleton scripts script ih =>
    rw [restoreScripts_concat]
    have hnamed := (restored_restoreScripts hw scripts).changes.named
    exact ih.trans (notifies_restoreScript hnamed _ script)

theorem notifies_reportStale (w : Workspace) (stale : List String) :
    w.Notifies (reportStale w stale) := by
  unfold reportStale
  split_ifs
  · exact .refl w
  · exact (notifies_warn w _).trans (notifies_send _ rfl)

theorem notifies_restore (g : Ground) (hw : w.Named) (s : GroundSnapshot) :
    w.Notifies (g.restore w s).2.2 := by
  have hleft := changes_leave hw (g.files.filter fun file => !(ofSnapshot s).holds file)
  exact ((notifies_leave hw _).trans (notifies_restoreScripts hleft.named _)).trans
    (notifies_reportStale _ _)

end SceneDebugger.Ground
