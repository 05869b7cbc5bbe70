import FastSearch.Subscription.SubscriptionService

/-!
# What an update of the subscribed profiles leaves

The table after `createProfilesFromSubscription`, whatever the feeds hold and however they fail:
the profiles that a user configured are as they were, every other key has one row, and the row is
active exactly if the key was offered. The proof follows the objects in memory; the rows agree with
them but for those that the last loop is going to write.
-/

namespace FastSearch.Subscription

open Server Database

section Content

variable {numeral : Int32 → String} {t : ProfileTable} {seen : List Profile}
  {key : SubscriptionKey} {o it : Profile}

variable (numeral) in
/-- Some profile with the key was offered. -/
def Offered (seen : List Profile) (key : SubscriptionKey) : Prop :=
  ∃ it ∈ seen, subscriptionKey numeral it = key

private theorem offered_concat : Offered numeral (seen ++ [it]) key ↔
    Offered numeral seen key ∨ subscriptionKey numeral it = key := by
  simp only [Offered, List.mem_append, List.mem_singleton, or_and_right, exists_or,
    exists_eq_left]

variable (numeral t) in
/-- What the object of a key holds after some profiles were offered: the settings and the counts of
the profile that held the key, or else an offered profile; the server is an offered one. -/
structure Content (seen : List Profile) (key : SubscriptionKey) (o : Profile) : Prop where
  subscribed : o.subscription ≠ .userConfigured
  keyed : subscriptionKey numeral o = key
  active : o.subscription = .active ↔ Offered numeral seen key
  old : ∀ r, holder numeral t.rows key = some r → o = { r with
    password := o.password
    method := o.method
    plugin := o.plugin
    udpFallback := o.udpFallback
    subscription := o.subscription }
  untouched : ∀ r, holder numeral t.rows key = some r →
    ¬ Offered numeral seen key → o = { r with subscription := .obsolete }
  new : holder numeral t.rows key = none → ∃ it ∈ seen, subscriptionKey numeral it = key ∧
    o = { it with
      id := o.id
      userOrder := o.userOrder
      udpFallback := o.udpFallback
      subscription := .active }
  server : Offered numeral seen key → ∃ it ∈ seen,
    subscriptionKey numeral it = key ∧ o.password = it.password ∧ o.method = it.method ∧
      o.plugin = it.plugin

/-- Another offer does not matter to an object whose key it has not, or that is active. -/
private theorem Content.concat (h : Content numeral t seen key o)
    (hit : subscriptionKey numeral it = key → Offered numeral seen key) :
    Content numeral t (seen ++ [it]) key o := by
  have hmem : Offered numeral (seen ++ [it]) key ↔
      Offered numeral seen key := by
    rw [offered_concat]
    exact or_iff_left_of_imp hit
  exact {
    subscribed := h.subscribed
    keyed := h.keyed
    active := by rw [hmem]; exact h.active
    old := h.old
    untouched := by rw [hmem]; exact h.untouched
    new := by
      intro hn
      obtain ⟨it', hm, hrest⟩ := h.new hn
      exact ⟨it', List.mem_append_left _ hm, hrest⟩
    server := by
      rw [hmem]
      intro hk
      obtain ⟨it', hm, hrest⟩ := h.server hk
      exact ⟨it', List.mem_append_left _ hm, hrest⟩ }

/-- An object that no offer has reached is one that was in the table. -/
private theorem Content.holder_of_not_active (h : Content numeral t seen key o)
    (ho : o.subscription ≠ .active) :
    ∃ r, holder numeral t.rows key = some r ∧ o = { r with subscription := .obsolete } := by
  have hk : ¬ Offered numeral seen key := fun hm ↦ ho (h.active.mpr hm)
  cases hr : holder numeral t.rows key with
  | some r => exact ⟨r, rfl, h.untouched r hr hk⟩
  | none =>
    obtain ⟨it, hit, hkey, -⟩ := h.new hr
    exact absurd ⟨it, hit, hkey⟩ hk

/-- An obsolete object takes the server of an offered profile. -/
private theorem Content.renewed (h : Content numeral t seen key o)
    (ho : o.subscription ≠ .active) (hit : subscriptionKey numeral it = key) :
    Content numeral t (seen ++ [it]) key (renewed o it) := by
  obtain ⟨r, hr, hor⟩ := h.holder_of_not_active ho
  have hmem : Offered numeral (seen ++ [it]) key := offered_concat.mpr (Or.inr hit)
  exact {
    subscribed := by simp [Subscription.renewed]
    keyed := h.keyed
    active := by simp [Subscription.renewed, hmem]
    old := by
      intro r' hr'
      rw [hr] at hr'
      cases hr'
      rw [hor]
      rfl
    untouched := fun _ _ hn ↦ absurd hmem hn
    new := by
      rw [hr]
      rintro ⟨⟩
    server := fun _ ↦ ⟨it, by simp, hit, rfl, rfl, rfl⟩ }

end Content

/-! ### The feeds -/

section Inv

variable {g : ProfileKey} {numeral : Int32 → String} {t : ProfileTable} {seen : List Profile}
  {s : Importing Subscriptions} {key : SubscriptionKey} {id : Int} {it : Profile}

variable (numeral t) in
/-- The objects and the rows, after some profiles were offered to the table. -/
structure Inv (seen : List Profile) (s : Importing Subscriptions) : Prop where
  content : ∀ key id, s.kept.subscriptions.get? key = some id →
    (s.objects id).id = id ∧ Content numeral t seen key (s.objects id)
  row : ∀ key id, s.kept.subscriptions.get? key = some id →
    ∃ r ∈ s.table.rows, r.id = id ∧ r.subscription ≠ .userConfigured
  rows : ∀ r ∈ s.table.rows, r.subscription ≠ .userConfigured →
    (∃ key, s.kept.subscriptions.get? key = some r.id) ∧
      (r.id ∉ s.kept.toUpdate → s.objects r.id = r)
  user : ∀ r, r.subscription = .userConfigured → (r ∈ s.table.rows ↔ r ∈ t.rows)
  toUpdate : ∀ id ∈ s.kept.toUpdate, (∃ r ∈ t.rows, r.id = id) ∧
    ∃ key, s.kept.subscriptions.get? key = some id
  offered : ∀ it ∈ seen, ∃ id, s.kept.subscriptions.get? (subscriptionKey numeral it) = some id
  holders : ∀ key r, holder numeral t.rows key = some r →
    s.kept.subscriptions.get? key = some r.id

/-- One object has one key. -/
private theorem Inv.key_eq (h : Inv numeral t seen s) {key' : SubscriptionKey}
    (hk : s.kept.subscriptions.get? key = some id)
    (hk' : s.kept.subscriptions.get? key' = some id) : key = key' := by
  rw [← (h.content key id hk).2.keyed, (h.content key' id hk').2.keyed]

/-- The objects of the other keys, when one object changes. -/
private theorem Inv.objects_update (h : Inv numeral t seen s) {key' : SubscriptionKey} {id' : Int}
    (hk : s.kept.subscriptions.get? key = some id)
    (hk' : s.kept.subscriptions.get? key' = some id') (o : Profile) (hne : key' ≠ key) :
    Function.update s.objects id o id' = s.objects id' := by
  apply Function.update_of_ne
  rintro rfl
  exact hne (h.key_eq hk' hk)

private theorem Inv.offered_concat (h : Inv numeral t seen s)
    (hk : s.kept.subscriptions.get? (subscriptionKey numeral it) = some id) :
    ∀ it' ∈ seen ++ [it],
      ∃ id, s.kept.subscriptions.get? (subscriptionKey numeral it') = some id := by
  intro it' hm
  rcases List.mem_append.mp hm with hm | hm
  · exact h.offered it' hm
  · obtain rfl := List.mem_singleton.mp hm
    exact ⟨id, hk⟩

/-- An offer to an active object changes nothing. -/
private theorem inv_again (h : Inv numeral t seen s)
    (hk : s.kept.subscriptions.get? (subscriptionKey numeral it) = some id)
    (ha : (s.objects id).subscription = .active) : Inv numeral t (seen ++ [it]) s where
  content := by
    intro key' id' hk'
    obtain ⟨hid, hc⟩ := h.content key' id' hk'
    refine ⟨hid, hc.concat ?_⟩
    rintro rfl
    rw [hk] at hk'
    cases hk'
    exact hc.active.mp ha
  row := h.row
  rows := h.rows
  user := h.user
  toUpdate := h.toUpdate
  offered := h.offered_concat hk
  holders := h.holders

/-- An offer to an obsolete object renews it. -/
private theorem inv_renewed (h : Inv numeral t seen s)
    (hk : s.kept.subscriptions.get? (subscriptionKey numeral it) = some id)
    (ha : (s.objects id).subscription ≠ .active) :
    Inv numeral t (seen ++ [it]) { s.setObject (renewed (s.objects id) it) with
      kept := { s.kept with toUpdate := id :: s.kept.toUpdate } } := by
  obtain ⟨hid, hc⟩ := h.content _ id hk
  have hoid : (renewed (s.objects id) it).id = id := hid
  exact {
    content := by
      intro key' id' hk'
      change (Function.update s.objects _ _ id').id = id' ∧
        Content numeral t _ key' (Function.update s.objects _ _ id')
      rw [hoid]
      by_cases hkey : key' = subscriptionKey numeral it
      · subst hkey
        change s.kept.subscriptions.get? _ = _ at hk'
        rw [hk] at hk'
        cases hk'
        rw [Function.update_self]
        exact ⟨hid, hc.renewed ha rfl⟩
      · rw [h.objects_update hk hk' _ hkey]
        obtain ⟨hid', hc'⟩ := h.content key' id' hk'
        exact ⟨hid', hc'.concat fun he ↦ absurd he.symm hkey⟩
    row := h.row
    rows := by
      intro r hr hsub
      obtain ⟨⟨key', hk'⟩, hsync⟩ := h.rows r hr hsub
      refine ⟨⟨key', hk'⟩, ?_⟩
      intro hu
      change r.id ∉ id :: s.kept.toUpdate at hu
      rw [List.mem_cons, not_or] at hu
      change Function.update s.objects _ _ r.id = r
      rw [hoid, Function.update_of_ne hu.1]
      exact hsync hu.2
    user := h.user
    toUpdate := by
      intro id' hu
      rcases List.mem_cons.mp hu with rfl | hu
      · obtain ⟨r, hr, hor⟩ := hc.holder_of_not_active ha
        refine ⟨⟨r, (of_holder hr).1, ?_⟩, _, hk⟩
        rw [hor] at hid
        exact hid
      · exact h.toUpdate id' hu
    offered := h.offered_concat hk
    holders := h.holders }

/-- A profile offered under a new key is created. -/
private theorem inv_subscribeNew (h : Inv numeral t seen s)
    (hk : s.kept.subscriptions.get? (subscriptionKey numeral it) = none) :
    Inv numeral t (seen ++ [it]) (subscribeNew g numeral s it).2 := by
  have hfresh : ∀ r ∈ s.table.rows, r.id ≠ g.next s.table.rows := fun r hr he ↦
    g.fresh s.table.rows (List.mem_map.mpr ⟨r, hr, he⟩)
  have hne : ∀ key' id', s.kept.subscriptions.get? key' = some id' →
      id' ≠ g.next s.table.rows := by
    intro key' id' hk'
    obtain ⟨r, hr, rfl, -⟩ := h.row key' id' hk'
    exact hfresh r hr
  have hput : ∀ key', (subscribeNew g numeral s it).2.kept.subscriptions.get? key' =
      if key' = subscriptionKey numeral it then some (g.next s.table.rows)
      else s.kept.subscriptions.get? key' := fun key' ↦ LinkedMap.get?_put _ _ _ _
  have hobj : ∀ id', id' ≠ g.next s.table.rows →
      (subscribeNew g numeral s it).2.objects id' = s.objects id' := fun id' hid' ↦
    Function.update_of_ne hid' _ _
  have hself : (subscribeNew g numeral s it).2.objects (g.next s.table.rows) =
      { it with
        subscription := .active
        id := g.next s.table.rows
        userOrder := (ProfileManager.nextOrder s.table).getD 0 } := Function.update_self _ _ _
  have hmem : ∀ r, r ∈ (subscribeNew g numeral s it).2.table.rows ↔ r ∈ s.table.rows ∨
      r = { it with
        subscription := .active
        id := g.next s.table.rows
        userOrder := (ProfileManager.nextOrder s.table).getD 0 } := fun r ↦ RowTable.mem_insert
  exact {
    content := by
      intro key' id' hk'
      rw [hput] at hk'
      split at hk'
      · next hkey =>
        cases hk'
        rw [hself]
        have hnone : holder numeral t.rows key' = none := by
          cases hh : holder numeral t.rows key' with
          | none => rfl
          | some r =>
            rw [← hkey, h.holders key' r hh] at hk
            cases hk
        refine ⟨rfl, ?_⟩
        exact {
          subscribed := by simp
          keyed := hkey.symm
          active := by simp [offered_concat, hkey]
          old := by
            rw [hnone]
            rintro r ⟨⟩
          untouched := by
            rw [hnone]
            rintro r ⟨⟩
          new := fun _ ↦ ⟨it, by simp, hkey.symm, rfl⟩
          server := fun _ ↦ ⟨it, by simp, hkey.symm, rfl, rfl, rfl⟩ }
      · next hkey =>
        rw [hobj id' (hne key' id' hk')]
        obtain ⟨hid', hc'⟩ := h.content key' id' hk'
        exact ⟨hid', hc'.concat fun he ↦ absurd he.symm hkey⟩
    row := by
      intro key' id' hk'
      rw [hput] at hk'
      split at hk'
      · cases hk'
        exact ⟨_, (hmem _).mpr (Or.inr rfl), rfl, by simp⟩
      · obtain ⟨r, hr, hrest⟩ := h.row key' id' hk'
        exact ⟨r, (hmem r).mpr (Or.inl hr), hrest⟩
    rows := by
      intro r hr hsub
      rcases (hmem r).mp hr with hr | rfl
      · obtain ⟨⟨key', hk'⟩, hsync⟩ := h.rows r hr hsub
        refine ⟨⟨key', ?_⟩, ?_⟩
        · rw [hput, if_neg, hk']
          rintro rfl
          rw [hk] at hk'
          cases hk'
        · rw [hobj r.id (hfresh r hr)]
          exact hsync
      · exact ⟨⟨subscriptionKey numeral it, by rw [hput, if_pos rfl]⟩, fun _ ↦ hself⟩
    user := by
      intro r hu
      rw [hmem, h.user r hu]
      apply or_iff_left
      rintro rfl
      cases hu
    toUpdate := by
      intro id' hu
      obtain ⟨hrow, key', hk'⟩ := h.toUpdate id' hu
      refine ⟨hrow, key', ?_⟩
      rw [hput, if_neg, hk']
      rintro rfl
      rw [hk] at hk'
      cases hk'
    offered := by
      intro it' hm
      rw [hput]
      split
      · exact ⟨_, rfl⟩
      · next hkey =>
        rcases List.mem_append.mp hm with hm | hm
        · exact h.offered it' hm
        · exact absurd (by rw [List.mem_singleton.mp hm]) hkey
    holders := by
      intro key' r hr
      rw [hput, if_neg, h.holders key' r hr]
      rintro rfl
      rw [h.holders _ r hr] at hk
      cases hk }

/-- An offered profile has an object under its key, and the keys there were keep theirs. -/
private theorem inv_subscribe (h : Inv numeral t seen s) (it : Profile) :
    Inv numeral t (seen ++ [it]) (subscribe g numeral s it).2 ∧
      (subscribe g numeral s it).2.kept.subscriptions.get? (subscriptionKey numeral it) =
        some (subscribe g numeral s it).1 ∧
      ∀ key id, s.kept.subscriptions.get? key = some id →
        (subscribe g numeral s it).2.kept.subscriptions.get? key = some id := by
  cases hk : s.kept.subscriptions.get? (subscriptionKey numeral it) with
  | none =>
    have heq : subscribe g numeral s it = subscribeNew g numeral s it := by rw [subscribe, hk]
    rw [heq]
    refine ⟨inv_subscribeNew h hk, LinkedMap.get?_put_self _ _ _, ?_⟩
    intro key id hkey
    refine (LinkedMap.get?_put_ne _ _ ?_).trans hkey
    rintro rfl
    rw [hk] at hkey
    cases hkey
  | some id =>
    obtain ⟨-, hc⟩ := h.content _ id hk
    cases hs : (s.objects id).subscription with
    | userConfigured => exact absurd hs hc.subscribed
    | active =>
      have heq : subscribe g numeral s it = (id, s) := by simp only [subscribe, hk, hs]
      rw [heq]
      exact ⟨inv_again h hk hs, hk, fun _ _ hkey ↦ hkey⟩
    | obsolete =>
      have heq : subscribe g numeral s it = (id, { s.setObject (renewed (s.objects id) it) with
          kept := { s.kept with toUpdate := id :: s.kept.toUpdate } }) := by
        simp only [subscribe, hk, hs]
      rw [heq]
      exact ⟨inv_renewed h hk (by simp [hs]), hk, fun _ _ hkey ↦ hkey⟩

variable (numeral) in
/-- A profile object that waits for its fallback is the one of an offered key. -/
def Waits (seen : List Profile) (s : Importing Subscriptions) (entries : List (Int × Profile)) :
    Prop :=
  ∀ e ∈ entries, ∃ key, s.kept.subscriptions.get? key = some e.1 ∧ Offered numeral seen key

private theorem Offered.append (h : Offered numeral seen key) (more : List Profile) :
    Offered numeral (seen ++ more) key := by
  obtain ⟨it, hit, hkey⟩ := h
  exact ⟨it, List.mem_append_left _ hit, hkey⟩

private theorem Waits.subscribe {entries : List (Int × Profile)} (h : Waits numeral seen s entries)
    (hi : Inv numeral t seen s) (it : Profile) :
    Waits numeral (seen ++ [it]) (subscribe g numeral s it).2 entries := by
  intro e he
  obtain ⟨key, hk, ho⟩ := h e he
  exact ⟨key, (inv_subscribe hi it).2.2 key e.1 hk, ho.append [it]⟩

end Inv

end FastSearch.Subscription
