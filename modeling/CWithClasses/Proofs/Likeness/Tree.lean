import CWithClasses.Proofs.Likeness.Function

/-!
# Whole trees in states that are alike

With functions and classes, all constructs are known to run alike if their parts do. So every tree
that spells no hidden name keeps states alike, whatever it is checked as.
-/

namespace CWithClasses

open Check

variable {L : Likeness}

namespace Likeness

open RunningPairs

variable {p : Phrase} {c : Clause} {q : Option Phrase} {hveil : ∀ i, ¬ L.veiled i}

/-! ### Classes -/

/-- Choosing the access region. -/
theorem setAccess (access : Access) :
    L.rules.pair (Check.modifySymbols (·.setAccess access))
      (Check.modifySymbols (·.setAccess access)) fun _ _ => True :=
  modifySymbols fun _ _ h => h.setAccess access

/-- A class specification whose parts run alike. -/
theorem classSpec (hparts : c.Throughout (Phrase.RunsAlike L hveil)) :
    L.rules.pair c.classSpec c.classSpec L.ty := by
  unfold Clause.classSpec
  refine L.rules.part fun head hhead => ?_
  refine L.rules.part fun keyword _ => ?_
  refine L.rules.leaf fun key _ => ?_
  split
  · exact L.rules.fault _
  · refine L.rules.seq (classHead (hparts 0 head hhead)) ?_
    rintro cls _ rfl
    refine L.rules.seq (pushScope (.classBody cls) fun d _ => hveil d.id) fun _ _ _ => ?_
    refine L.rules.seq (setAccess _) fun _ _ _ => ?_
    have hmembers := members (L := L.running hveil) declareFunctionDef setAccess (hparts 1)
    refine L.rules.seq hmembers fun bodies bodies' hbodies => ?_
    refine L.rules.seq (modifySymbols fun _ _ h => h.markComplete cls) fun _ _ _ => ?_
    refine L.rules.seq (L.rules.forM hbodies fun _ _ hb => checkBody hb) fun _ _ _ => ?_
    refine L.rules.seq (dropScope hveil) fun _ _ _ => ?_
    refine symbols fun t u _ => ?_
    exact L.rules.seq (log _ _) fun _ _ _ => L.rules.ret rfl

end Likeness

/-! ### Trees -/

variable {n : Node} (hveil : ∀ i, ¬ L.veiled i) (hn : n.Avoids L.hidden)

include hveil hn

/-- A tree runs alike, and so does all that it is made of, if it spells no hidden name. -/
theorem Node.runsAlike : n.phrase.Throughout (Phrase.RunsAlike L hveil) := by
  refine throughout_phrase fun m hm hparts => ?_
  exact runs hparts (hn.subtree hm) (fun _ => Likeness.classSpec hparts)
    fun _ => Likeness.functionDefinition hparts

/-- A tree that spells no hidden name keeps states alike. -/
theorem Node.check_alike : L.rules.pair n.check n.check L.ty :=
  check_runs (runsAlike hveil hn) (Likeness.classSpec (runsAlike hveil hn).clause)

end CWithClasses
