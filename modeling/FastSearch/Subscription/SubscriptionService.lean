import FastSearch.Database.ProfileJson

/-!
# Updating the subscribed profiles

`createProfilesFromSubscription` in `subscription/SubscriptionService.kt`: the profiles of the
table that came from a subscription are matched with what the feeds offer, by name and address.
What is offered becomes active, and what no feed offers any more stays as obsolete.
-/

namespace FastSearch.Subscription

open Server Database

/-- The name and the address of a profile, by which subscribed profiles are told apart. -/
abbrev SubscriptionKey := Option String × String

/-- The key of a profile, `subscription/SubscriptionService.kt:161`. -/
def subscriptionKey (numeral : Int32 → String) (profile : Profile) : SubscriptionKey :=
  (profile.name, formattedAddress numeral profile)

/-- The local variables of `createProfilesFromSubscription`: the subscribed profile objects by
their keys, and the identifiers of the rows to update. -/
structure Subscriptions where
  subscriptions : LinkedMap SubscriptionKey Int := ∅
  toUpdate : List Int := []

section Update

variable (g : ProfileKey) (numeral : Int32 → String)

/-- A new subscribed profile, `subscription/SubscriptionService.kt:188`. -/
def subscribeNew (s : Importing Subscriptions) (it : Profile) : Int × Importing Subscriptions :=
  let (id, s) := s.createProfile g { it with subscription := .active }
  (id, { s with kept := { s.kept with
    subscriptions := s.kept.subscriptions.put (subscriptionKey numeral it) id } })

/-- What an offered profile changes of an obsolete one,
`subscription/SubscriptionService.kt:180`. -/
def renewed (oldProfile it : Profile) : Profile :=
  { oldProfile with
    password := it.password
    method := it.method
    plugin := it.plugin
    udpFallback := it.udpFallback
    subscription := .active }

/-- What is done with an offered profile, `subscription/SubscriptionService.kt:172`. -/
def subscribe (s : Importing Subscriptions) (it : Profile) : Int × Importing Subscriptions :=
  match s.kept.subscriptions.get? (subscriptionKey numeral it) with
  | some id =>
    match (s.objects id).subscription with
    | .active => (id, s)
    | .obsolete =>
      (id, { s.setObject (renewed (s.objects id) it) with
        kept := { s.kept with toUpdate := id :: s.kept.toUpdate } })
    | .userConfigured => subscribeNew g numeral s it
  | none => subscribeNew g numeral s it

end Update

/-! ### The first phase -/

section Preprocess

variable {numeral : Int32 → String} {t : ProfileTable} {currentId : Int} {done : List Profile}
  {s : Importing Subscriptions × Int}

variable (numeral) in
/-- The subscribed profile that holds a key: the first one with it. -/
def holder (profiles : List Profile) (key : SubscriptionKey) : Option Profile :=
  profiles.find? fun p ↦ p.subscription ≠ .userConfigured ∧ subscriptionKey numeral p = key

theorem of_holder {profiles : List Profile} {key : SubscriptionKey} {p : Profile}
    (h : holder numeral profiles key = some p) :
    p ∈ profiles ∧ p.subscription ≠ .userConfigured ∧ subscriptionKey numeral p = key := by
  refine ⟨List.mem_of_find?_eq_some h, ?_⟩
  simpa using List.find?_some h

end Preprocess

end FastSearch.Subscription
