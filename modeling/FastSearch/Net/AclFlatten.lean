import FastSearch.Net.Acl

/-!
# Imported lists

`Acl.flatten` in `acl/Acl.kt` replaces the addresses of further lists by what these hold, down to a
depth, and `Acl.customRules` reads and writes the user's list. A service saves the user's list
flattened (`bg/BaseService.kt:358`). Every fetch has its own path of addresses from the top, so
what the network answers is a function of the path.
-/

namespace FastSearch.Net.Acl

open Lines

variable {Url : Type} (sys : System Url)
  (connect : List Url → Except String (List Char))

/-- A child of another mode loses its subnets, `acl/Acl.kt:160`. -/
def adapt (bypass : Bool) (child : Acl Url) : Acl Url :=
  if bypass ≠ child.bypass then { child with subnets := ∅, bypass := bypass } else child

/-- What a child holds is added, `acl/Acl.kt:166`. -/
def merge (acl child : Acl Url) : Acl Url :=
  { acl with
    bypassHostnames := acl.bypassHostnames ∪ child.bypassHostnames
    proxyHostnames := acl.proxyHostnames ∪ child.proxyHostnames
    subnets := acl.subnets ∪ child.subnets }

/-- `flatten`, `acl/Acl.kt:154`, of a list that was reached on a path. -/
def flatten : Nat → List Url → Acl Url → Except String (Acl Url)
  | 0, _, acl => .ok { acl with urls := [] }
  | depth + 1, path, acl =>
    (acl.urls.foldlM (fun result url ↦
      ((connect (path ++ [url])).bind fun text ↦
        (fromReader sys acl.bypass text).bind fun child ↦
          (flatten depth (path ++ [url]) child).map (adapt acl.bypass)).map (merge result))
      acl).map fun result : Acl Url ↦ { result with urls := [] }

/-- The getter of `customRules`, `acl/Acl.kt:58`; the file may not be readable. -/
def customRules (file : Option (List Char)) : Except String (Acl Url) :=
  (match file with
    | some text => fromReader sys true text
    | none => .ok {}).map fun acl : Acl Url ↦
      if acl.bypass then acl else { acl with bypass := true, subnets := ∅ }

/-- What `save` writes before a service starts with custom rules, `bg/BaseService.kt:358`. -/
def savedRules (file : Option (List Char)) : Except String (List Char) := do
  let acl ← customRules sys file
  return toText sys (← flatten sys connect 10 [] acl)

/-- A list that is the given one, or is fetched from it through addresses in lists that are; with
`same`, every list on the way has the mode of the one before it. The depth left and the path come
with it. -/
inductive Imported (same : Bool) : Nat → List Url → Acl Url → Nat → List Url → Acl Url → Prop
  | self {depth : Nat} {path : List Url} {acl : Acl Url} :
    Imported same depth path acl depth path acl
  | url {depth depth' : Nat} {path path' : List Url} {acl child acl' : Acl Url} {u : Url}
    {text : List Char} (hu : u ∈ acl.urls) (hc : connect (path ++ [u]) = .ok text)
    (hf : fromReader sys acl.bypass text = .ok child)
    (hs : same = true → child.bypass = acl.bypass)
    (h : Imported same depth (path ++ [u]) child depth' path' acl') :
    Imported same (depth + 1) path acl depth' path' acl'

/-! ### What a flat list holds -/

/-- The result has no addresses left and keeps the mode; it holds the hostnames of all imported
lists, and the subnets of those whose mode never changes on the way. -/
structure Holds (depth : Nat) (path : List Url) (acl r : Acl Url) : Prop where
  urls : r.urls = []
  bypass : r.bypass = acl.bypass
  bypassHostnames : ∀ h, h ∈ r.bypassHostnames ↔
    ∃ d p a, Imported sys connect false depth path acl d p a ∧ h ∈ a.bypassHostnames
  proxyHostnames : ∀ h, h ∈ r.proxyHostnames ↔
    ∃ d p a, Imported sys connect false depth path acl d p a ∧ h ∈ a.proxyHostnames
  subnets : ∀ n, n ∈ r.subnets ↔
    ∃ d p a, Imported sys connect true depth path acl d p a ∧ n ∈ a.subnets

variable {sys connect} {same : Bool} {depth : Nat} {path : List Url} {acl : Acl Url}
  {Q : Acl Url → Prop}

/-- These determine the result. -/
theorem Holds.unique {r r' : Acl Url} (h : Holds sys connect depth path acl r)
    (h' : Holds sys connect depth path acl r') : r = r' := by
  obtain ⟨b, x, n, u, m⟩ := r
  obtain ⟨b', x', n', u', m'⟩ := r'
  obtain rfl : b = b' := Finset.ext fun t ↦ (h.bypassHostnames t).trans (h'.bypassHostnames t).symm
  obtain rfl : x = x' := Finset.ext fun t ↦ (h.proxyHostnames t).trans (h'.proxyHostnames t).symm
  obtain rfl : n = n' := Finset.ext fun t ↦ (h.subnets t).trans (h'.subnets t).symm
  obtain rfl : u = u' := h.urls.trans h'.urls.symm
  obtain rfl : m = m' := h.bypass.trans h'.bypass.symm
  rfl

private theorem exists_imported_zero :
    (∃ d p a, Imported sys connect same 0 path acl d p a ∧ Q a) ↔ Q acl := by
  constructor
  · rintro ⟨d, p, a, h, hq⟩
    cases h
    exact hq
  · exact fun hq ↦ ⟨_, _, acl, .self, hq⟩

private theorem exists_imported_succ :
    (∃ d p a, Imported sys connect same (depth + 1) path acl d p a ∧ Q a) ↔
      Q acl ∨ ∃ u ∈ acl.urls, ∃ text child, connect (path ++ [u]) = .ok text ∧
        fromReader sys acl.bypass text = .ok child ∧ (same = true → child.bypass = acl.bypass) ∧
        ∃ d p a, Imported sys connect same depth (path ++ [u]) child d p a ∧ Q a := by
  constructor
  · rintro ⟨d, p, a, h, hq⟩
    cases h with
    | self => exact Or.inl hq
    | url hu hc hf hs h => exact Or.inr ⟨_, hu, _, _, hc, hf, hs, _, _, _, h, hq⟩
  · rintro (hq | ⟨u, hu, text, child, hc, hf, hs, d, p, a, h, hq⟩)
    · exact ⟨_, _, acl, .self, hq⟩
    · exact ⟨d, p, a, .url hu hc hf hs h, hq⟩

private theorem foldl_merge (cs : List (Acl Url)) (acl : Acl Url) :
    (cs.foldl merge acl).bypass = acl.bypass ∧
      (∀ h, h ∈ (cs.foldl merge acl).bypassHostnames ↔
        h ∈ acl.bypassHostnames ∨ ∃ c ∈ cs, h ∈ c.bypassHostnames) ∧
      (∀ h, h ∈ (cs.foldl merge acl).proxyHostnames ↔
        h ∈ acl.proxyHostnames ∨ ∃ c ∈ cs, h ∈ c.proxyHostnames) ∧
      ∀ n, n ∈ (cs.foldl merge acl).subnets ↔ n ∈ acl.subnets ∨ ∃ c ∈ cs, n ∈ c.subnets := by
  induction cs generalizing acl with
  | nil => simp
  | cons c cs ih =>
    obtain ⟨h₁, h₂, h₃, h₄⟩ := ih (merge acl c)
    rw [List.foldl_cons]
    refine ⟨h₁, fun h ↦ ?_, fun h ↦ ?_, fun n ↦ ?_⟩
    · rw [h₂]
      simp [merge, or_assoc]
    · rw [h₃]
      simp [merge, or_assoc]
    · rw [h₄]
      simp [merge, or_assoc]

/-- A child that is read, flattened and adapted. -/
private def Child (sys : System Url) (connect : List Url → Except String (List Char))
    (depth : Nat) (path : List Url) (acl : Acl Url) (u : Url) (c : Acl Url) : Prop :=
  ∃ text child flat, connect (path ++ [u]) = .ok text ∧
    fromReader sys acl.bypass text = .ok child ∧
    flatten sys connect depth (path ++ [u]) child = .ok flat ∧ adapt acl.bypass flat = c

private theorem flatten_succ_iff {r : Acl Url} :
    flatten sys connect (depth + 1) path acl = .ok r ↔
      ∃ cs, List.Forall₂ (Child sys connect depth path acl) acl.urls cs ∧
        { cs.foldl merge acl with urls := [] } = r := by
  have hmap : ∀ {α β : Type} {x : Except String α} {f : α → β} {b : β},
      x.map f = .ok b ↔ ∃ a, x = .ok a ∧ f a = b := by
    intro α β x f b
    cases x <;> simp [Except.map]
  have hbind : ∀ {α β : Type} {x : Except String α} {f : α → Except String β} {b : β},
      x.bind f = .ok b ↔ ∃ a, x = .ok a ∧ f a = .ok b := by
    intro α β x f b
    cases x <;> simp [Except.bind]
  rw [flatten, hmap]
  simp only [foldlM_map_eq_ok_iff, hbind, hmap]
  constructor
  · rintro ⟨a, ⟨cs, hcs, rfl⟩, rfl⟩
    refine ⟨cs, hcs.imp ?_, rfl⟩
    rintro u c ⟨text, ht, child, hc, flat, hf, ha⟩
    exact ⟨text, child, flat, ht, hc, hf, ha⟩
  · rintro ⟨cs, hcs, rfl⟩
    refine ⟨_, ⟨cs, hcs.imp ?_, rfl⟩, rfl⟩
    rintro u c ⟨text, child, flat, ht, hc, hf, ha⟩
    exact ⟨text, ht, child, hc, flat, hf, ha⟩

/-- Adapting takes the subnets of another mode and nothing else. -/
private theorem mem_adapt (bypass : Bool) (child : Acl Url) :
    (adapt bypass child).bypassHostnames = child.bypassHostnames ∧
      (adapt bypass child).proxyHostnames = child.proxyHostnames ∧
      ∀ n, n ∈ (adapt bypass child).subnets ↔ child.bypass = bypass ∧ n ∈ child.subnets := by
  rw [adapt]
  split
  · next h => exact ⟨rfl, rfl, by simp [Ne.symm h]⟩
  · next h => exact ⟨rfl, rfl, by simp [not_not.mp h]⟩

/-- If what the flattened children hold is what is imported from them, it is so for their list. -/
private theorem exists_child_iff {cs : List (Acl Url)}
    (hcs : List.Forall₂ (Child sys connect depth path acl) acl.urls cs) {P : Acl Url → Prop}
    (hpq : ∀ u child flat, flatten sys connect depth (path ++ [u]) child = .ok flat →
      (P (adapt acl.bypass flat) ↔ (same = true → child.bypass = acl.bypass) ∧
        ∃ d p a, Imported sys connect same depth (path ++ [u]) child d p a ∧ Q a)) :
    (Q acl ∨ ∃ c ∈ cs, P c) ↔
      ∃ d p a, Imported sys connect same (depth + 1) path acl d p a ∧ Q a := by
  rw [exists_imported_succ]
  apply or_congr_right
  constructor
  · rintro ⟨c, hc, hp⟩
    obtain ⟨u, hu, text, child, flat, ht, hch, hf, rfl⟩ := exists_left hcs hc
    exact ⟨u, hu, text, child, ht, hch, (hpq u child flat hf).mp hp⟩
  · rintro ⟨u, hu, text, child, ht, hch, hq⟩
    obtain ⟨c, hc, text', child', flat, ht', hch', hf, rfl⟩ :=
      exists_right hcs hu
    rw [ht] at ht'
    cases ht'
    rw [hch] at hch'
    cases hch'
    exact ⟨_, hc, (hpq u child flat hf).mpr hq⟩

/-- A flat list holds what is imported. -/
theorem holds_of_flatten {r : Acl Url} (h : flatten sys connect depth path acl = .ok r) :
    Holds sys connect depth path acl r := by
  induction depth generalizing path acl r with
  | zero =>
    cases h
    refine ⟨rfl, rfl, fun h ↦ ?_, fun h ↦ ?_, fun n ↦ ?_⟩
    · rw [exists_imported_zero (Q := fun a ↦ h ∈ a.bypassHostnames)]
    · rw [exists_imported_zero (Q := fun a ↦ h ∈ a.proxyHostnames)]
    · rw [exists_imported_zero (Q := fun a ↦ n ∈ a.subnets)]
  | succ depth ih =>
    obtain ⟨cs, hcs, rfl⟩ := flatten_succ_iff.mp h
    obtain ⟨h₁, h₂, h₃, h₄⟩ := foldl_merge cs acl
    refine ⟨rfl, h₁, fun h ↦ (h₂ h).trans ?_, fun h ↦ (h₃ h).trans ?_, fun n ↦ (h₄ n).trans ?_⟩
    · apply exists_child_iff hcs
      intro u child flat hf
      rw [(mem_adapt acl.bypass flat).1, (ih hf).bypassHostnames]
      simp
    · apply exists_child_iff hcs
      intro u child flat hf
      rw [(mem_adapt acl.bypass flat).2.1, (ih hf).proxyHostnames]
      simp
    · apply exists_child_iff hcs
      intro u child flat hf
      rw [(mem_adapt acl.bypass flat).2.2, (ih hf).subnets, (ih hf).bypass]
      simp

/-- Flattening fails exactly if, on the way down, an address cannot be fetched or what is fetched
cannot be read. -/
theorem exists_flatten_iff :
    (∃ r, flatten sys connect depth path acl = .ok r) ↔
      ∀ d p a, Imported sys connect false depth path acl (d + 1) p a → ∀ u ∈ a.urls,
        ∃ text child, connect (p ++ [u]) = .ok text ∧ fromReader sys a.bypass text = .ok child := by
  induction depth generalizing path acl with
  | zero =>
    refine iff_of_true ⟨_, rfl⟩ ?_
    intro d p a h
    cases h
  | succ depth ih =>
    constructor
    · rintro ⟨r, hr⟩ d p a h u hu
      obtain ⟨cs, hcs, rfl⟩ := flatten_succ_iff.mp hr
      cases h with
      | self =>
        obtain ⟨c, _, text, child, _, ht, hch, _⟩ :=
          exists_right hcs hu
        exact ⟨text, child, ht, hch⟩
      | url hu' hc hf _ h =>
        obtain ⟨c, _, text, child, flat, ht, hch, hfl, _⟩ :=
          exists_right hcs hu'
        rw [hc] at ht
        cases ht
        rw [hf] at hch
        cases hch
        exact ih.mp ⟨flat, hfl⟩ d p a h u hu
    · intro hall
      have hchild : ∀ u ∈ acl.urls, ∃ c, Child sys connect depth path acl u c := by
        intro u hu
        obtain ⟨text, child, ht, hch⟩ := hall depth path acl .self u hu
        obtain ⟨flat, hf⟩ := ih.mpr fun d p a h ↦ hall d p a (.url hu ht hch nofun h)
        exact ⟨_, text, child, flat, ht, hch, hf, rfl⟩
      obtain ⟨cs, hcs⟩ := exists_forall₂ hchild
      exact ⟨_, flatten_succ_iff.mpr ⟨cs, hcs, rfl⟩⟩

/-- Flattening gives the list that holds what is imported, down to the depth, or fails because
something on the way cannot be fetched or read. -/
theorem flatten_exact (depth : Nat) (path : List Url) (acl : Acl Url) :
    (∀ r, flatten sys connect depth path acl = .ok r → Holds sys connect depth path acl r) ∧
      ((∃ r, flatten sys connect depth path acl = .ok r) ↔
        ∀ d p a, Imported sys connect false depth path acl (d + 1) p a → ∀ u ∈ a.urls,
          ∃ text child, connect (p ++ [u]) = .ok text ∧
            fromReader sys a.bypass text = .ok child) :=
  ⟨fun _ ↦ holds_of_flatten, exists_flatten_iff⟩

/-! ### The user's list -/

/-- Every list on the way is printable and made of what the platform gives, if the first is. -/
private theorem printable_of_imported (hsys : sys.Lawful) {d : Nat} {p : List Url} {a : Acl Url}
    (h : Imported sys connect same depth path acl d p a)
    (hp : acl.Printable sys ∧ acl.Native sys) : a.Printable sys ∧ a.Native sys := by
  induction h with
  | self => exact hp
  | url _ _ hf _ _ ih => exact ih (printable_of_fromReader hsys hf)

/-- So is a list that was flattened. -/
theorem printable_of_flatten (hsys : sys.Lawful) {r : Acl Url}
    (hp : acl.Printable sys ∧ acl.Native sys) (h : flatten sys connect depth path acl = .ok r) :
    r.Printable sys ∧ r.Native sys := by
  have hh := holds_of_flatten h
  have hnil : ∀ u, u ∉ r.urls := by
    intro u hu
    rw [hh.urls] at hu
    cases hu
  refine ⟨⟨?_, ?_, fun u hu ↦ absurd hu (hnil u)⟩, ?_, fun u hu ↦ absurd hu (hnil u)⟩
  · intro name hm
    obtain ⟨d, p, a, hi, hm⟩ := (hh.bypassHostnames name).mp hm
    exact (printable_of_imported hsys hi hp).1.bypassHostnames name hm
  · intro name hm
    obtain ⟨d, p, a, hi, hm⟩ := (hh.proxyHostnames name).mp hm
    exact (printable_of_imported hsys hi hp).1.proxyHostnames name hm
  · intro n hm
    obtain ⟨d, p, a, hi, hm⟩ := (hh.subnets n).mp hm
    exact (printable_of_imported hsys hi hp).2.addresses n hm

/-- The user's list is printable, made of what the platform gives, and bypasses by default. -/
theorem printable_of_customRules (hsys : sys.Lawful) {file : Option (List Char)}
    (h : customRules sys file = .ok acl) :
    (acl.Printable sys ∧ acl.Native sys) ∧ acl.bypass = true := by
  have hread : ∃ read : Acl Url, (read.Printable sys ∧ read.Native sys) ∧
      (if read.bypass then read else { read with bypass := true, subnets := ∅ }) = acl := by
    cases file with
    | none =>
      cases h
      exact ⟨{}, ⟨⟨fun _ hh ↦ (nomatch hh), fun _ hh ↦ (nomatch hh), fun _ hh ↦ (nomatch hh)⟩,
        fun _ hh ↦ (nomatch hh), fun _ hh ↦ (nomatch hh)⟩, rfl⟩
    | some text =>
      cases hr : fromReader sys true text with
      | error e =>
        rw [customRules, hr] at h
        cases h
      | ok read =>
        rw [customRules, hr] at h
        exact ⟨read, printable_of_fromReader hsys hr, Except.ok.inj h⟩
  obtain ⟨read, hp, rfl⟩ := hread
  split
  · next hb => exact ⟨hp, hb⟩
  · exact ⟨⟨{ hp.1 with }, ⟨fun _ hh ↦ (nomatch hh), hp.2.urls⟩⟩, rfl⟩

end FastSearch.Net.Acl
