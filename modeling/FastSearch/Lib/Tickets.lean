/-!
# Numbered tickets

Tickets are issued with the numbers 0, 1, 2 and so on. Each one waits until it is settled. The
books are in order when every ticket issued so far is in exactly one of the two lists, once.
-/

namespace Tickets

/-- Of the first `issued` tickets each is waiting or settled, and only once. -/
def Accounted (waiting settled : List Nat) (issued : Nat) : Prop :=
  (waiting ++ settled).Perm (List.range issued)

variable {w w' d d' : List Nat} {n : Nat}

theorem accounted_init : Accounted [] [] 0 := List.Perm.refl _

/-- Only the contents of the two lists matter. -/
theorem Accounted.perm (h : Accounted w d n) (hp : (w' ++ d').Perm (w ++ d)) :
    Accounted w' d' n :=
  hp.trans h

/-- It is enough to count every ticket. -/
theorem Accounted.of_count (h : Accounted w d n)
    (hc : ∀ a, w'.count a + d'.count a = w.count a + d.count a) : Accounted w' d' n := by
  apply h.perm
  rw [List.perm_iff_count]
  intro a
  rw [List.count_append, List.count_append]
  exact hc a

/-- A new ticket waits. -/
theorem Accounted.issue (h : Accounted w d n) : Accounted (w ++ [n]) d (n + 1) := by
  unfold Accounted at h ⊢
  rw [List.range_succ, List.append_assoc]
  have hm : (w ++ ([n] ++ d)).Perm (w ++ (d ++ [n])) :=
    List.Perm.append_left w List.perm_append_comm
  refine hm.trans ?_
  rw [← List.append_assoc]
  exact List.Perm.append_right [n] h

/-- A waiting ticket is settled. -/
theorem Accounted.settle {x : Nat} (h : Accounted w d n) (hw : w.Perm (x :: w')) :
    Accounted w' (d ++ [x]) n := by
  apply h.perm
  rw [← List.append_assoc]
  have h1 : (w' ++ d ++ [x]).Perm (x :: (w' ++ d)) := List.perm_append_comm
  exact h1.trans (List.Perm.append_right d hw).symm

/-- All waiting tickets are settled at once. -/
theorem Accounted.settleAll (h : Accounted w d n) : Accounted [] (d ++ w) n := by
  apply h.perm
  rw [List.nil_append]
  exact List.perm_append_comm

/-- No ticket is settled twice. -/
theorem Accounted.nodup_settled (h : Accounted w d n) : d.Nodup :=
  (List.nodup_append.mp (h.nodup_iff.mpr List.nodup_range)).2.1

/-- With none waiting, every ticket is settled. -/
theorem Accounted.mem_settled (h : Accounted [] d n) {i : Nat} (hi : i < n) : i ∈ d :=
  h.mem_iff.mpr (List.mem_range.mpr hi)

end Tickets
