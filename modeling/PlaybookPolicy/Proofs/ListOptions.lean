import PlaybookPolicy.Proofs.ResolvedRules
import PlaybookPolicy.Proofs.Trimming

/-!
# Options that are lists

Each built-in rule has one option that is a list of texts.  The rule normalises what a configuration
lists: it trims every entry, turns domains to small letters, and leaves out blank entries and
repetitions.  Of a list without any text in it nothing is left, and then the rule falls back to the
list that it has without a configuration.  What comes out is normal already, so to resolve it again
changes nothing.

## Main definitions

* `ListOption` — the options, with the rule that has each of them, its name, what settings say about
  it, the normal form of its entries, and its list without a configuration.
* `ListOption.resolve` — the list that the rule makes of the entries listed.
* `ListOption.listFrom` — the list that it takes from its settings.
* `ListOption.IsResolved` — a list of distinct normal entries.
* `Config.listOf` — the list that a configuration gives to an option.

## Main results

* `Text.firstOccurrences_eq_eraseDups` — of equal texts the first one stays.
* `ListOption.isResolved_resolve` — **what a rule makes of a list is normal.**
* `ListOption.resolve_resolve` — **to resolve a list again changes nothing.**
* `ListOption.resolve_of_ne_empty` — **a list without blank entries replaces the built-in one.**
-/

namespace PlaybookPolicy

namespace Text

/-! ### Small letters -/

theorem toLower_cases (c : Char) :
    (¬(65 ≤ c.toNat ∧ c.toNat ≤ 90) ∧ c.toLower = c) ∨
      (65 ≤ c.toNat ∧ c.toNat ≤ 90) ∧ c.toLower.toNat = c.toNat + 32 := by
  by_cases h : 65 ≤ c.toNat ∧ c.toNat ≤ 90
  · have hcapital : c.val ≥ 'A'.val ∧ c.val ≤ 'Z'.val := h
    have hlower : c.toLower.toNat = (c.toNat + 32) % 2 ^ 32 :=
      congrArg Char.toNat (dif_pos hcapital)
    refine .inr ⟨h, ?_⟩
    omega
  · exact .inl ⟨h, dif_neg h⟩

theorem toLower_toLower (c : Char) : c.toLower.toLower = c.toLower := by
  rcases toLower_cases c with ⟨-, h⟩ | ⟨hc, h⟩
  · rw [h, h]
  · rcases toLower_cases c.toLower with ⟨-, h'⟩ | ⟨hc', -⟩
    · exact h'
    · omega

/-- A blank stays one, and no letter becomes one. -/
theorem isBlank_toLower (c : Char) : isBlank c.toLower = isBlank c := by
  rcases toLower_cases c with ⟨-, h⟩ | ⟨hc, h⟩
  · rw [h]
  · have hletter : ∀ d : Char, 65 ≤ d.toNat → d.toNat ≤ 122 → isBlank d = false := by
      intro d hlow hhigh
      simp [isBlank]
      omega
    rw [hletter c hc.1 (by omega), hletter _ (by omega) (by omega)]

theorem lowered_lowered (s : String) : lowered (lowered s) = lowered s := by
  have hlower : Char.toLower ∘ Char.toLower = Char.toLower := funext toLower_toLower
  rw [lowered, lowered, String.toList_ofList, List.map_map, hlower]

theorem trimmed_lowered (s : String) : trimmed (lowered s) = lowered (trimmed s) := by
  rw [trimmed, lowered, lowered, trimmed, String.toList_ofList, String.toList_ofList,
    trim_map isBlank_toLower]

/-! ### Lists without repetitions -/

theorem filter_firstOccurrences (p : String → Bool) (l : List String) :
    (firstOccurrences l).filter p = firstOccurrences (l.filter p) := by
  induction l with
  | nil => rfl
  | cons s l ih =>
    rw [firstOccurrences]
    by_cases hs : p s = true
    · rw [List.filter_cons_of_pos hs, List.filter_cons_of_pos hs, firstOccurrences, ← ih,
        List.filter_filter, List.filter_filter]
      simp only [Bool.and_comm]
    · -- what equals `s` is left out by `p` in any case
      have hother : ∀ q ∈ firstOccurrences l, (p q && q != s) = p q := by
        intro q _
        by_cases hq : q = s <;> simp [hq, hs]
      rw [List.filter_cons_of_neg hs, List.filter_cons_of_neg hs, ← ih, List.filter_filter,
        List.filter_congr hother]

/-- Of equal texts the first one stays. -/
theorem firstOccurrences_eq_eraseDups (l : List String) : firstOccurrences l = l.eraseDups := by
  -- `eraseDups` goes on with a shorter list that is not the tail
  induction hn : l.length using Nat.strong_induction_on generalizing l with
  | _ n ih =>
    cases l with
    | nil => rfl
    | cons s l =>
      have hlt : (l.filter (· != s)).length < n := by
        have hle := List.length_filter_le (· != s) l
        rw [List.length_cons] at hn
        omega
      rw [firstOccurrences, filter_firstOccurrences, ih _ hlt _ rfl, List.eraseDups_cons]
      rfl

theorem mem_firstOccurrences {s : String} {l : List String} : s ∈ firstOccurrences l ↔ s ∈ l := by
  rw [firstOccurrences_eq_eraseDups, List.mem_eraseDups]

theorem firstOccurrences_eq_self {l : List String} (h : l.Nodup) : firstOccurrences l = l := by
  induction l with
  | nil => rfl
  | cons s l ih =>
    obtain ⟨hs, hl⟩ := List.nodup_cons.mp h
    rw [firstOccurrences, ih hl, List.filter_eq_self.mpr]
    intro q hq
    exact bne_iff_ne.mpr fun heq => hs (heq ▸ hq)

variable {normal : String → String} {l : List String}

theorem mem_cleaned {s : String} :
    s ∈ cleaned normal l ↔ (∃ v ∈ l, normal v = s) ∧ s ≠ "" := by
  rw [cleaned, mem_firstOccurrences, List.mem_filter, List.mem_map, bne_iff_ne]

/-- Entries that stay in the normal form are all kept. -/
theorem cleaned_of_ne_empty (h : ∀ v ∈ l, normal v ≠ "") :
    cleaned normal l = (l.map normal).eraseDups := by
  rw [cleaned, firstOccurrences_eq_eraseDups, List.filter_eq_self.mpr]
  intro s hs
  obtain ⟨v, hv, rfl⟩ := List.mem_map.mp hs
  exact bne_iff_ne.mpr (h v hv)

end Text

/-! ### Options -/

/-- The options of rules that are lists. -/
inductive ListOption where
  /-- The domains that mail may go to. -/
  | allowedEmailDomains
  /-- The collections that every play must declare. -/
  | mandatoryCollections
  deriving DecidableEq

namespace ListOption

/-- All options, in the order in which settings are inspected. -/
def all : List ListOption :=
  [allowedEmailDomains, mandatoryCollections]

/-- The rule that has the option. -/
def rule : ListOption → RuleId
  | allowedEmailDomains => recipientsId
  | mandatoryCollections => collectionsId

/-- The name of the option. -/
def name : ListOption → String
  | allowedEmailDomains => "allowed_email_domains"
  | mandatoryCollections => "mandatory_collections"

/-- What settings list for the option. -/
def written? : ListOption → RuleSettings → Option (List String)
  | allowedEmailDomains => (·.allowedEmailDomains)
  | mandatoryCollections => (·.mandatoryCollections)

/-- The form in which the rule keeps an entry: trimmed, and a domain in small letters. -/
def normal : ListOption → String → String
  | allowedEmailDomains => fun s => Text.lowered (Text.trimmed s)
  | mandatoryCollections => Text.trimmed

/-- The list without a configuration. -/
def builtin : ListOption → List String
  | allowedEmailDomains => AllowedDomains.builtin.domains
  | mandatoryCollections => MandatoryCollections.builtin.names

/-- The list that the rule makes of the entries listed. -/
def resolve : ListOption → List String → List String
  | allowedEmailDomains => fun l => (AllowedDomains.ofList l).domains
  | mandatoryCollections => fun l => (MandatoryCollections.ofList l).names

/-- The list that the rule takes from its settings, if it has any. -/
def listFrom (o : ListOption) (settings : Option RuleSettings) : List String :=
  match settings.bind o.written? with
  | some l => o.resolve l
  | none => o.builtin

/-- The list holds distinct entries in normal form, at least one. -/
structure IsResolved (o : ListOption) (l : List String) : Prop where
  ne_nil : l ≠ []
  nodup : l.Nodup
  ne_empty : ∀ s ∈ l, s ≠ ""
  normal : ∀ s ∈ l, o.normal s = s

variable {o : ListOption} {l : List String}

theorem trimmed_normal (o : ListOption) (s : String) :
    Text.trimmed (o.normal s) = o.normal s := by
  cases o with
  | allowedEmailDomains =>
    show Text.trimmed (Text.lowered (Text.trimmed s)) = _
    rw [Text.trimmed_lowered, Text.trimmed_trimmed]
    rfl
  | mandatoryCollections => exact Text.trimmed_trimmed s

theorem normal_normal (o : ListOption) (s : String) : o.normal (o.normal s) = o.normal s := by
  cases o with
  | allowedEmailDomains =>
    show Text.lowered (Text.trimmed (Text.lowered (Text.trimmed s))) = _
    rw [Text.trimmed_lowered, Text.lowered_lowered, Text.trimmed_trimmed]
    rfl
  | mandatoryCollections => exact Text.trimmed_trimmed s

/-- Nothing is left of an entry if it holds blanks only. -/
theorem normal_eq_empty_iff (o : ListOption) {s : String} :
    o.normal s = "" ↔ Text.trimmed s = "" := by
  cases o with
  | allowedEmailDomains =>
    show Text.lowered (Text.trimmed s) = "" ↔ _
    rw [Text.lowered, String.ofList_eq_empty_iff, List.map_eq_nil_iff, String.toList_eq_nil_iff]
  | mandatoryCollections => rfl

theorem resolve_eq (o : ListOption) (l : List String) :
    o.resolve l =
      if (Text.cleaned o.normal l).isEmpty then o.builtin else Text.cleaned o.normal l := by
  cases o with
  | allowedEmailDomains => exact apply_ite AllowedDomains.domains _ _ _
  | mandatoryCollections => exact apply_ite MandatoryCollections.names _ _ _

theorem isResolved_builtin (o : ListOption) : o.IsResolved o.builtin := by
  cases o with
  | allowedEmailDomains => exact ⟨by decide, by decide, by decide, by decide +kernel⟩
  | mandatoryCollections => exact ⟨by decide, by decide, by decide, by decide +kernel⟩

/-- **What a rule makes of a list is normal.** -/
theorem isResolved_resolve (o : ListOption) (l : List String) : o.IsResolved (o.resolve l) := by
  rw [resolve_eq]
  split
  · exact o.isResolved_builtin
  · next hne =>
    refine ⟨?_, Text.nodup_firstOccurrences _, ?_, ?_⟩
    · simpa using hne
    · intro s hs
      exact (Text.mem_cleaned.mp hs).2
    · intro s hs
      obtain ⟨⟨v, -, rfl⟩, -⟩ := Text.mem_cleaned.mp hs
      exact o.normal_normal v

theorem resolve_of_isResolved (h : o.IsResolved l) : o.resolve l = l := by
  have hmap : l.map o.normal = l := (List.map_congr_left h.normal).trans (List.map_id l)
  have hfilter : l.filter (· != "") = l := by
    rw [List.filter_eq_self]
    intro s hs
    exact bne_iff_ne.mpr (h.ne_empty s hs)
  have hclean : Text.cleaned o.normal l = l := by
    rw [Text.cleaned, hmap, hfilter, Text.firstOccurrences_eq_self h.nodup]
  rw [resolve_eq, hclean, if_neg]
  simpa using h.ne_nil

/-- **To resolve a list again changes nothing.** -/
theorem resolve_resolve (o : ListOption) (l : List String) :
    o.resolve (o.resolve l) = o.resolve l :=
  resolve_of_isResolved (o.isResolved_resolve l)

theorem resolve_nil (o : ListOption) : o.resolve [] = o.builtin :=
  o.resolve_eq []

/-- **A list without blank entries replaces the built-in one.**  Its entries are put into normal
form, and of equal ones the first one stays. -/
theorem resolve_of_ne_empty (hne : l ≠ []) (h : ∀ v ∈ l, Text.trimmed v ≠ "") :
    o.resolve l = (l.map o.normal).eraseDups := by
  have hclean : Text.cleaned o.normal l = (l.map o.normal).eraseDups := by
    apply Text.cleaned_of_ne_empty
    intro v hv hempty
    exact h v hv (o.normal_eq_empty_iff.mp hempty)
  rw [resolve_eq, hclean, if_neg]
  obtain ⟨v, r, rfl⟩ := List.exists_cons_of_ne_nil hne
  simp [List.eraseDups_cons]

end ListOption

namespace Config

/-- The list that a configuration gives to an option. -/
def listOf (c : Config) (o : ListOption) : List String :=
  o.listFrom (c.settingsOf o.rule.text)

end Config

end PlaybookPolicy
