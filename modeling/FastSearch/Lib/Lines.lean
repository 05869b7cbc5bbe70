import Mathlib.Data.List.Forall2

/-!
# Lines

A text is cut at a separator, and each piece is read on its own; the first piece that cannot be
read decides the error.
-/

universe u v w

namespace Lines

/-! ### Reading lines -/

/-- The lines of a text after the part of a line that has been read; a line ends with a line feed,
a carriage return, or both. -/
def readLinesFrom (current : List Char) : List Char → List (List Char)
  | [] => if current = [] then [] else [current]
  | '\r' :: '\n' :: cs => current :: readLinesFrom [] cs
  | c :: cs =>
    if c = '\n' ∨ c = '\r' then current :: readLinesFrom [] cs
    else readLinesFrom (current ++ [c]) cs

/-- `BufferedReader.readLine` until the end. -/
def readLines (text : List Char) : List (List Char) := readLinesFrom [] text

/-- The text has no end of a line. -/
def OneLine (text : List Char) : Prop := ∀ c ∈ text, c ≠ '\n' ∧ c ≠ '\r'

private theorem readLinesFrom_append {l : List Char} (hl : OneLine l) (current cs : List Char) :
    readLinesFrom current (l ++ '\n' :: cs) = (current ++ l) :: readLinesFrom [] cs := by
  induction l generalizing current with
  | nil =>
    rw [List.nil_append, readLinesFrom, if_pos (Or.inl rfl), List.append_nil]
    rintro cs' ⟨⟩
  | cons c l ih =>
    obtain ⟨hn, hr⟩ := hl c List.mem_cons_self
    rw [List.cons_append, readLinesFrom, if_neg (by simp [hn, hr]),
      ih (fun d hd ↦ hl d (List.mem_cons_of_mem c hd)), List.append_assoc, List.singleton_append]
    rintro cs' rfl
    exact absurd rfl hr

/-- Lines that are written one after the other are read back. -/
theorem readLines_flatMap {ls : List (List Char)} (h : ∀ l ∈ ls, OneLine l) :
    readLines (ls.flatMap fun l ↦ l ++ ['\n']) = ls := by
  induction ls with
  | nil => rfl
  | cons l ls ih =>
    rw [List.forall_mem_cons] at h
    have hcons : (l :: ls).flatMap (fun l ↦ l ++ ['\n']) =
        l ++ '\n' :: ls.flatMap fun l ↦ l ++ ['\n'] := by
      simp
    rw [readLines, hcons, readLinesFrom_append h.1, List.nil_append]
    exact congrArg _ (ih h.2)

/-- What is read is lines. -/
theorem oneLine_of_mem_readLines {text l : List Char} (h : l ∈ readLines text) : OneLine l := by
  have hnil : OneLine [] := fun _ hc ↦ (nomatch hc)
  have hall : ∀ (current text : List Char), OneLine current →
      ∀ l ∈ readLinesFrom current text, OneLine l := by
    intro current text
    induction current, text using readLinesFrom.induct with
    | case1 => simp [readLinesFrom]
    | case2 current hne =>
      intro hc l hl
      rw [readLinesFrom, if_neg hne, List.mem_singleton] at hl
      exact hl ▸ hc
    | case3 current cs ih =>
      intro hc l hl
      rw [readLinesFrom] at hl
      rcases List.mem_cons.mp hl with rfl | hl
      · exact hc
      · exact ih hnil l hl
    | case4 current c cs hcr hend ih =>
      intro hc l hl
      rw [readLinesFrom, if_pos hend] at hl
      · rcases List.mem_cons.mp hl with rfl | hl
        · exact hc
        · exact ih hnil l hl
      · exact hcr
    | case5 current c cs hcr hend ih =>
      intro hc l hl
      rw [readLinesFrom, if_neg hend] at hl
      · refine ih ?_ l hl
        intro d hd
        rcases List.mem_append.mp hd with hd | hd
        · exact hc d hd
        · rw [List.mem_singleton.mp hd]
          exact not_or.mp hend
      · exact hcr
  exact hall [] text hnil l h

/-! ### Reading pieces -/

/-- A piece has no separator. -/
theorem not_mem_of_mem_splitOn {α : Type u} [BEq α] [LawfulBEq α] {a : α} {l piece : List α}
    (h : piece ∈ l.splitOn a) : a ∉ piece := by
  induction l generalizing piece with
  | nil =>
    rw [List.splitOn_nil, List.mem_singleton] at h
    rw [h]
    exact List.not_mem_nil
  | cons b l ih =>
    rw [List.splitOn_cons_eq_if_modifyHead] at h
    split at h
    · rcases List.mem_cons.mp h with rfl | h
      · exact List.not_mem_nil
      · exact ih h
    · next hb =>
      obtain ⟨first, rest, hs⟩ := List.exists_cons_of_ne_nil (List.splitOn_ne_nil a l)
      rw [hs, List.modifyHead_cons] at h
      rcases List.mem_cons.mp h with rfl | h
      · have hfirst : a ∉ first := ih (hs ▸ List.mem_cons_self)
        have hne : a ≠ b := by
          rintro rfl
          exact hb (beq_self_eq_true a)
        simpa [hne] using hfirst
      · exact ih (hs ▸ List.mem_cons_of_mem _ h)

/-- All pieces are read exactly if each of them is. -/
theorem mapM_eq_ok_iff {α : Type u} {β : Type u} {ε : Type w} {f : α → Except ε β} {l : List α}
    {r : List β} : l.mapM f = .ok r ↔ List.Forall₂ (fun a b ↦ f a = .ok b) l r := by
  induction l generalizing r with
  | nil =>
    rw [List.mapM_nil, List.forall₂_nil_left_iff]
    exact ⟨fun h ↦ (Except.ok.inj h).symm, fun h ↦ congrArg Except.ok h.symm⟩
  | cons a l ih =>
    rw [List.mapM_cons, List.forall₂_cons_left_iff]
    cases ha : f a with
    | error e =>
      constructor
      · intro h
        cases h
      · rintro ⟨b, _, hb, _⟩
        cases hb
    | ok b =>
      cases hl : l.mapM f with
      | error e =>
        constructor
        · intro h
          cases h
        · rintro ⟨_, r', _, hr, _⟩
          rw [← ih, hl] at hr
          cases hr
      | ok r' =>
        constructor
        · intro h
          cases h
          exact ⟨b, r', rfl, ih.mp hl, rfl⟩
        · rintro ⟨b', r'', hb, hr, rfl⟩
          cases hb
          rw [← ih, hl] at hr
          cases hr
          rfl

/-- Pieces that are read one after the other and put together. -/
theorem foldlM_map_eq_ok_iff {α : Type u} {β σ : Type v} {ε : Type w} {f : α → Except ε β}
    {g : σ → β → σ} {l : List α} {s t : σ} :
    l.foldlM (fun s a ↦ (f a).map (g s)) s = .ok t ↔
      ∃ r, List.Forall₂ (fun a b ↦ f a = .ok b) l r ∧ r.foldl g s = t := by
  induction l generalizing s with
  | nil =>
    simp only [List.foldlM_nil, List.forall₂_nil_left_iff, exists_eq_left, List.foldl_nil]
    exact ⟨fun h ↦ Except.ok.inj h, fun h ↦ congrArg Except.ok h⟩
  | cons a l ih =>
    rw [List.foldlM_cons]
    cases ha : f a with
    | error e =>
      constructor
      · intro h
        cases h
      · rintro ⟨r, hr, _⟩
        obtain ⟨b, _, hb, _, _⟩ := List.forall₂_cons_left_iff.mp hr
        rw [ha] at hb
        cases hb
    | ok b =>
      change l.foldlM (fun s a ↦ (f a).map (g s)) (g s b) = .ok t ↔ _
      rw [ih]
      constructor
      · rintro ⟨r, hr, ht⟩
        exact ⟨b :: r, .cons ha hr, ht⟩
      · rintro ⟨_, hr, ht⟩
        obtain ⟨b', r, hb, hl, rfl⟩ := List.forall₂_cons_left_iff.mp hr
        rw [ha] at hb
        cases hb
        exact ⟨r, hl, ht⟩

/-- What every piece keeps is kept by a text whose pieces are all read. -/
theorem foldlM_keeps {α : Type u} {σ : Type v} {ε : Type w} {f : σ → α → Except ε σ}
    {P : σ → Prop} {l : List α} (keep : ∀ s a t, P s → a ∈ l → f s a = .ok t → P t) {s t : σ}
    (hs : P s) (h : l.foldlM f s = .ok t) : P t := by
  induction l generalizing s with
  | nil =>
    cases h
    exact hs
  | cons a l ih =>
    rw [List.foldlM_cons] at h
    cases ha : f s a with
    | error e =>
      rw [ha] at h
      cases h
    | ok u =>
      rw [ha] at h
      exact ih (fun s b t hs hb ↦ keep s b t hs (List.mem_cons_of_mem a hb))
        (keep s a u hs List.mem_cons_self ha) h

section Forall₂

variable {α : Type u} {β : Type v} {R : α → β → Prop} {l : List α} {r : List β}

/-- Every result comes from a piece. -/
theorem exists_left (h : List.Forall₂ R l r) {b : β} (hb : b ∈ r) : ∃ a ∈ l, R a b := by
  induction h with
  | nil => cases hb
  | cons ha _ ih =>
    rcases List.mem_cons.mp hb with rfl | hb
    · exact ⟨_, List.mem_cons_self, ha⟩
    · obtain ⟨a, hm, hr⟩ := ih hb
      exact ⟨a, List.mem_cons_of_mem _ hm, hr⟩

/-- Every piece has a result. -/
theorem exists_right (h : List.Forall₂ R l r) {a : α} (ha : a ∈ l) : ∃ b ∈ r, R a b :=
  exists_left h.flip ha

/-- A relation may be weakened by what is known of the members. -/
theorem imp_of_mem {S : α → β → Prop} (h : List.Forall₂ R l r)
    (hs : ∀ a ∈ l, ∀ b ∈ r, R a b → S a b) : List.Forall₂ S l r := by
  induction h with
  | nil => exact .nil
  | cons ha _ ih =>
    refine .cons (hs _ List.mem_cons_self _ List.mem_cons_self ha) (ih ?_)
    exact fun a hm b hb ↦ hs a (List.mem_cons_of_mem _ hm) b (List.mem_cons_of_mem _ hb)

/-- Results of results. -/
theorem forall₂_trans {γ : Type w} {S : β → γ → Prop} {u : List γ} (h : List.Forall₂ R l r)
    (hs : List.Forall₂ S r u) : List.Forall₂ (fun a c ↦ ∃ b, R a b ∧ S b c) l u := by
  induction h generalizing u with
  | nil =>
    cases hs
    exact .nil
  | cons ha _ ih =>
    cases hs with
    | cons hb hs => exact .cons ⟨_, ha, hb⟩ (ih hs)

/-- If every piece has a result, they make a list. -/
theorem exists_forall₂ (h : ∀ a ∈ l, ∃ b, R a b) : ∃ r, List.Forall₂ R l r := by
  induction l with
  | nil => exact ⟨[], .nil⟩
  | cons a l ih =>
    rw [List.forall_mem_cons] at h
    obtain ⟨b, hb⟩ := h.1
    obtain ⟨r, hr⟩ := ih h.2
    exact ⟨b :: r, .cons hb hr⟩

end Forall₂

end Lines
