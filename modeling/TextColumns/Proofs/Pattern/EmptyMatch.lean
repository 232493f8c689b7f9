import TextColumns.Proofs.Pattern.Language
import TextColumns.Proofs.Search.Regions

/-!
Places where a node does not match the empty text.  A thread that enters the code of the node there
cannot leave it without consuming a character: some part of the code holds the entry, lies in front
of the exit, and leads nowhere else at that place.
-/

namespace TextColumns.Pattern

open Search (LeadsBetween Retains moves retains_one)
open Text (Cursor)

variable {program : Program} {flags : Flags} {cursor : Cursor}

theorem leadsBetween_fork {low high address inside exit : Nat} {greedy : Bool}
    (hinstruction : program.instructions[address]? = some (fork greedy inside exit))
    (hlowInside : low ≤ inside) (hhighInside : inside ≤ high) (hlowExit : low ≤ exit)
    (hhighExit : exit ≤ high) : LeadsBetween program cursor low high address (address + 1) := by
  cases greedy with
  | true => exact .split hinstruction hlowInside hhighInside hlowExit hhighExit
  | false => exact .split hinstruction hlowExit hhighExit hlowInside hhighInside

theorem Fragment.leadsBetween {node : Node} {entry exit : Nat}
    (hfragment : Fragment program flags node entry exit) (cursor : Cursor) :
    entry ≤ exit ∧ LeadsBetween program cursor entry exit entry exit := by
  induction hfragment with
  | empty | concatNil | noRound => exact ⟨Nat.le_refl _, .nothing⟩
  | literal hentry | any hentry | oneOf hentry | assertion hentry =>
      exact ⟨Nat.le_succ _, .next hentry nofun nofun (Nat.le_refl _) (Nat.le_refl _)⟩
  | capture hentry _ hstop ih =>
      obtain ⟨hle, hbody⟩ := ih
      exact ⟨by omega, (LeadsBetween.save hentry (by omega) (by omega)).append
        ((hbody.mono (by omega) (by omega)).append (.save hstop (by omega) (by omega)))⟩
  | group _ ih => exact ih
  | concatCons _ _ ihItem ihItems | round _ _ ihItem ihItems =>
      obtain ⟨hleItem, hitem⟩ := ihItem
      obtain ⟨hleItems, hitems⟩ := ihItems
      exact ⟨by omega, (hitem.mono (by omega) hleItems).append (hitems.mono hleItem (by omega))⟩
  | lastBranch _ ih => exact ih
  | @branch _ _ _ entry stop exit hentry _ hstop _ ihBranch ihOthers =>
      obtain ⟨hleBranch, hbranch⟩ := ihBranch
      obtain ⟨hleOthers, hothers⟩ := ihOthers
      have hchoice : LeadsBetween program cursor entry exit entry (entry + 1) :=
        .split hentry (by omega) (by omega) (by omega) (by omega)
      exact ⟨by omega, hchoice.append ((hbranch.mono (by omega) (by omega)).append
        ((LeadsBetween.jump hstop (by omega) (by omega)).append
          (hothers.mono (by omega) (by omega))))⟩
  | optionalRound hentry _ _ ihBody ihOthers =>
      obtain ⟨hleBody, hbody⟩ := ihBody
      obtain ⟨hleOthers, hothers⟩ := ihOthers
      exact ⟨by omega,
        (leadsBetween_fork hentry (by omega) (by omega) (by omega) (by omega)).append
          ((hbody.mono (by omega) (by omega)).append (hothers.mono (by omega) (by omega)))⟩
  | star hentry _ hstop ih =>
      obtain ⟨hle, hbody⟩ := ih
      exact ⟨by omega,
        (leadsBetween_fork hentry (by omega) (by omega) (by omega) (by omega)).append
          ((hbody.mono (by omega) (by omega)).append
            (.jump hstop (by omega) (by omega)))⟩
  | plus _ hstop ih =>
      obtain ⟨hle, hbody⟩ := ih
      exact ⟨by omega, (hbody.mono (by omega) (by omega)).append
        (leadsBetween_fork hstop (by omega) (by omega) (by omega) (by omega))⟩

/-- A thread at the entry of a fragment stays inside at places where the node does not match the
empty text. -/
theorem Fragment.retains {node : Node} {entry exit : Nat}
    (hfragment : Fragment program flags node entry exit)
    (hempty : ¬ node.Matches flags cursor cursor) :
    ∃ inside, Retains program cursor entry exit inside := by
  induction hfragment with
  | empty => exact absurd rfl hempty
  | literal hentry | any hentry | oneOf hentry =>
      refine ⟨_, retains_one hentry fun place hplace hcursor => ?_⟩
      obtain ⟨c, hnext⟩ := Search.cursor_of_mem_moves hplace
      exact absurd (congrArg Cursor.offset hcursor)
        (Nat.ne_of_gt (Cursor.offset_lt_of_next? hnext))
  | assertion hentry =>
      refine ⟨_, retains_one hentry fun place hplace _ => ?_⟩
      rw [moves, if_neg fun hholds => hempty ⟨rfl, hholds⟩] at hplace
      cases hplace
  | capture hentry _ _ ih =>
      obtain ⟨inside, hbody⟩ := ih hempty
      exact ⟨_, (hbody.widen (Nat.le_succ _)).behind (Nat.le_succ _)
        (.save hentry (Nat.le_refl _) (Nat.le_refl _))⟩
  | group _ ih => exact ih hempty
  | concatNil => exact absurd rfl hempty
  | @concatCons item items _ _ _ hitem hitems ihItem ihItems =>
      by_cases hmatches : item.Matches flags cursor cursor
      · obtain ⟨inside, hitems⟩ := ihItems fun hothers => hempty ⟨cursor, hmatches, hothers⟩
        obtain ⟨hle, hleads⟩ := hitem.leadsBetween cursor
        exact ⟨_, hitems.behind hle hleads⟩
      · obtain ⟨inside, hitem⟩ := ihItem hmatches
        exact ⟨inside, hitem.widen (hitems.leadsBetween cursor).1⟩
  | lastBranch _ ih => exact ih fun hmatches => hempty (.inl hmatches)
  | branch hentry _ _ _ ihBranch ihOthers =>
      obtain ⟨inside, hbranch⟩ := ihBranch fun hmatches => hempty (.inl hmatches)
      obtain ⟨insideOthers, hothers⟩ := ihOthers fun hmatches => hempty (.inr hmatches)
      exact ⟨_, hbranch.either hentry hothers (Nat.le_succ _)⟩
  | noRound => exact absurd (matches_noRound.mpr rfl) hempty
  | @round body min max greedy _ _ _ hbody hothers ihBody ihOthers =>
      rw [matches_round] at hempty
      by_cases hmatches : body.Matches flags cursor cursor
      · obtain ⟨inside, hothers⟩ := ihOthers fun hothers => hempty ⟨cursor, hmatches, hothers⟩
        obtain ⟨hle, hleads⟩ := hbody.leadsBetween cursor
        exact ⟨_, hothers.behind hle hleads⟩
      · obtain ⟨inside, hbody⟩ := ihBody hmatches
        exact ⟨inside, hbody.widen (hothers.leadsBetween cursor).1⟩
  | optionalRound => exact absurd (matches_optionalRound.mpr (.inl rfl)) hempty
  | star => exact absurd (matches_star.mpr (.inl rfl)) hempty
  | plus _ _ ih =>
      obtain ⟨inside, hbody⟩ := ih fun hmatches =>
        hempty (matches_plus.mpr ⟨cursor, hmatches, .inl rfl⟩)
      exact ⟨inside, hbody.widen (Nat.le_succ _)⟩

end TextColumns.Pattern
