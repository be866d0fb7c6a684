import LineBasic.Grammar.Follow
import LineBasic.Proofs.Grammar.First

/-!
# FOLLOW sets are exact

The FOLLOW set of a nonterminal holds a terminal just when some nonterminal derives a
form in which the two stand side by side, and the end marker also when the start
symbol derives a form that ends with the nonterminal. Nothing else is ever added while
the sets are being filled. Once they are filled, each step of a derivation keeps
whatever stands behind a nonterminal within the set of the nonterminal.

## Main definitions

* `Grammar.Follows`: what can come right after a nonterminal.
* `Grammar.FollowedBy`: whether the FOLLOW sets hold all that comes right after the
  nonterminals of a form.

## Main results

* `mem_startsOf`: what a sequence begins with where something follows it.
* `meets_follow`: the sets are filled when the search for them ends.
* `mem_get_follow_of_mem_startsOf`: what follows a symbol in a production.
* `mem_get_follow_iff`: what follows a symbol in all that the grammar derives.
-/

namespace LineBasic

section Sequences

variable {first : SetTable} {following : SymbolSet} {s t : Symbol} {xs ys : List Symbol}

theorem mem_startsOf : t ∈ startsOf first following xs ↔
    t ≠ epsilon ∧ t ∈ firstOfSequence first xs ∨
      epsilon ∈ firstOfSequence first xs ∧ t ∈ following :=
  mem_ite_erase_union

/-- Leaving out `ε` does not change what a sequence begins with. -/
theorem mem_startsOf_spelled (h : epsilon ∉ first.keys) :
    t ∈ startsOf first following (spelled xs) ↔ t ∈ startsOf first following xs := by
  simp only [mem_startsOf, mem_firstOfSequence_spelled h]

/-- More that follows a sequence is more that it begins with. -/
theorem startsOf_mono {more : SymbolSet} (subset : ∀ t ∈ following, t ∈ more)
    (h : t ∈ startsOf first following xs) : t ∈ startsOf first more xs := by
  rw [mem_startsOf] at h ⊢
  exact h.imp id fun ⟨empty, member⟩ => ⟨empty, subset t member⟩

/-- What follows a sequence follows its first part behind its second part. -/
theorem mem_startsOf_append : t ∈ startsOf first following (xs ++ ys) ↔
    t ∈ startsOf first (startsOf first following ys) xs := by
  simp only [mem_startsOf, mem_firstOfSequence_append]
  tauto

/-- The requirements of a production are those of its symbols. -/
theorem mem_followRequirementsIn {r : Requirement} :
    r ∈ followRequirementsIn first s xs ↔ ∃ before t rest, xs = before ++ t :: rest ∧
      r = ⟨t, fun follow => startsOf first (follow.get s) rest⟩ := by
  induction xs with
  | nil => simp [followRequirementsIn]
  | cons u xs ih =>
    rw [followRequirementsIn, List.mem_cons, ih]
    constructor
    · rintro (rfl | ⟨before, t, rest, rfl, rfl⟩)
      · exact ⟨[], u, xs, rfl, rfl⟩
      · exact ⟨u :: before, t, rest, rfl, rfl⟩
    · rintro ⟨before, t, rest, split, rfl⟩
      cases before with
      | nil =>
        obtain ⟨rfl, rfl⟩ := List.cons.inj split
        exact .inl rfl
      | cons _ before =>
        exact .inr ⟨before, t, rest, (List.cons.inj split).2, rfl⟩

end Sequences

namespace Grammar

variable {g : Grammar} {start s t x : Symbol} {p : Production} {u v : List Symbol}
  {following more : SymbolSet}

/-- Every requirement of the FOLLOW sets comes from a symbol of a production. -/
theorem mem_followRequirements {first : SetTable} {r : Requirement} :
    r ∈ g.followRequirements first ↔ ∃ s before t rest,
      before ++ t :: rest ∈ g.productions s ∧
        r = ⟨t, fun follow => startsOf first (follow.get s) rest⟩ := by
  rw [followRequirements, List.mem_flatMap]
  constructor
  · rintro ⟨⟨s, p⟩, listed, member⟩
    obtain ⟨before, t, rest, rfl, rfl⟩ := mem_followRequirementsIn.mp member
    exact ⟨s, before, t, rest, mem_entries.mp listed, rfl⟩
  · rintro ⟨s, before, t, rest, chosen, rfl⟩
    exact ⟨(s, _), mem_entries.mpr chosen,
      mem_followRequirementsIn.mpr ⟨before, t, rest, rfl, rfl⟩⟩

/-- Besides the end marker only symbols that occur in the grammar are ever asked
for. -/
theorem asksWithin_of_mem_followRequirements {r : Requirement}
    (listed : r ∈ g.followRequirements g.first) :
    SetTable.AsksWithin r (endMarker :: g.occurrences) := by
  intro table within x asked
  obtain ⟨s, before, t, rest, chosen, rfl⟩ := mem_followRequirements.mp listed
  rcases mem_startsOf.mp asked with ⟨full, begins⟩ | ⟨-, follows⟩
  · -- the FIRST sets hold no other symbols either
    rcases eq_epsilon_or_mem_of_mem_firstOfSequence begins with empty | member | ⟨u, inTable⟩
    · exact absurd empty full
    · have occurs : x ∈ before ++ t :: rest :=
        List.mem_append_right _ (List.mem_cons_of_mem _ member)
      exact List.mem_cons_of_mem _ (mem_occurrences chosen occurs)
    · rcases List.mem_cons.mp (within_first u x inTable) with empty | occurs
      · exact absurd empty full
      · exact List.mem_cons_of_mem _ occurs
  · exact within s x follows

theorem mem_get_followStart : x ∈ (g.emptyTable.add start (.singleton endMarker)).get s ↔
    s = start ∧ g.isNonterminal s = true ∧ x = endMarker := by
  rw [SetTable.mem_get_add, keys_emptyTable, ← isNonterminal_iff, SymbolSet.mem_singleton,
    or_iff_right not_mem_get_emptyTable]

theorem keys_follow : (g.follow start).keys = g.nonterminals :=
  (SetTable.keys_saturate _).trans (SetTable.keys_add.trans keys_emptyTable)

/-- The search for the FOLLOW sets ends because nothing is left to add. -/
theorem meets_follow : (g.follow start).Meets (g.followRequirements g.first) := by
  have within : (g.emptyTable.add start (.singleton endMarker)).Within
      (endMarker :: g.occurrences) := by
    intro s x member
    rw [(mem_get_followStart.mp member).2.2]
    exact List.mem_cons_self
  refine within.meets_saturate (fun _ => asksWithin_of_mem_followRequirements) ?_ ?_
  · rw [SetTable.keys_add, keys_emptyTable]
    exact g.distinct
  · rw [SetTable.keys_add]
    exact length_keys_lt_capacity endMarker

/-- The end marker follows the start symbol. -/
theorem endMarker_mem_get_follow (known : g.isNonterminal start = true) :
    endMarker ∈ (g.follow start).get start :=
  SetTable.saturate_induction (motive := fun table => endMarker ∈ table.get start)
    (mem_get_followStart.mpr ⟨rfl, known, rfl⟩)
    (fun _ _ _ member => SetTable.mem_get_add.mpr (.inl member)) _

/-- What can begin the rest of a production follows the symbol before it. -/
theorem mem_get_follow_of_mem_startsOf {before rest : List Symbol}
    (chosen : before ++ t :: rest ∈ g.productions s) (known : g.isNonterminal t = true)
    (h : x ∈ startsOf g.first ((g.follow start).get s) rest) : x ∈ (g.follow start).get t :=
  meets_follow.mem_get (mem_followRequirements.mpr ⟨s, before, t, rest, chosen, rfl⟩)
    (keys_follow ▸ isNonterminal_iff.mp known) h

/-! ### Nothing too much -/

/-- What can come right after a nonterminal: a terminal that stands behind it in a form
that some nonterminal derives, or the end marker if the start symbol derives a form
that ends with it. -/
def Follows (g : Grammar) (start s t : Symbol) : Prop :=
  (g.IsTerminal t ∧ ∃ n before after, g.isNonterminal n = true ∧
      g.Derives [n] (before ++ s :: t :: after)) ∨
    (t = endMarker ∧ ∃ before, g.Derives [start] (before ++ [s]))

/-- A nonterminal in a production has the other symbols of the production around it. -/
theorem derives_around {before rest : List Symbol} (noEpsilon : g.isNonterminal epsilon = false)
    (chosen : before ++ t :: rest ∈ g.productions s) (known : g.isNonterminal t = true) :
    g.Derives [s] (spelled before ++ t :: spelled rest) := by
  have full : t ≠ epsilon := by
    rintro rfl
    exact Bool.noConfusion (noEpsilon.symm.trans known)
  have derives := derives_of_mem_productions chosen
  rwa [spelled, List.filter_append, ← spelled, ← spelled, spelled_cons_of_ne full] at derives

/-- What begins the rest of a production follows the nonterminal before it. -/
theorem Begins.follows {before rest : List Symbol} (h : g.Begins (spelled rest) x)
    (full : x ≠ epsilon) (noEpsilon : g.isNonterminal epsilon = false)
    (chosen : before ++ t :: rest ∈ g.productions s) (known : g.isNonterminal t = true) :
    g.Follows start t x := by
  rcases h with ⟨terminal, after, begins⟩ | ⟨empty, -⟩
  · refine .inl ⟨terminal, s, spelled before, after, isNonterminal_of_mem_productions chosen, ?_⟩
    have derives := derives_around noEpsilon chosen known
    exact derives.trans ((Derives.refl (spelled before)).append ((Derives.refl [t]).append begins))
  · exact absurd empty full

/-- What follows a nonterminal follows the last nonterminal of its productions, and any
other behind which all symbols can vanish. -/
theorem Follows.of_vanishes {before rest : List Symbol} (h : g.Follows start s x)
    (vanishes : g.Derives (spelled rest) []) (noEpsilon : g.isNonterminal epsilon = false)
    (chosen : before ++ t :: rest ∈ g.productions s) (known : g.isNonterminal t = true) :
    g.Follows start t x := by
  have ends : g.Derives [s] (spelled before ++ [t]) := by
    have derives := derives_around noEpsilon chosen known
    exact derives.trans ((Derives.refl (spelled before)).append ((Derives.refl [t]).append vanishes))
  rcases h with ⟨terminal, n, left, right, nonterminal, derives⟩ | ⟨rfl, left, derives⟩
  · refine .inl ⟨terminal, n, left ++ spelled before, right, nonterminal, derives.trans ?_⟩
    simpa using ends.extend left (x :: right)
  · refine .inr ⟨rfl, left ++ spelled before, derives.trans ?_⟩
    simpa using ends.extend left []

/-- Tables with a set for each nonterminal that holds only what can follow the
nonterminal. -/
structure SoundFollow (g : Grammar) (start : Symbol) (follow : SetTable) : Prop where
  keys : follow.keys = g.nonterminals
  follows : ∀ s, ∀ t ∈ follow.get s, g.Follows start s t

/-- Meeting the requirement of one symbol of a production keeps a table sound. -/
theorem SoundFollow.meet {follow : SetTable} (sound : g.SoundFollow start follow)
    (noEpsilon : g.isNonterminal epsilon = false) {r : Requirement}
    (listed : r ∈ g.followRequirements g.first) : g.SoundFollow start (r.meet follow) := by
  obtain ⟨s, before, t, rest, chosen, rfl⟩ := mem_followRequirements.mp listed
  refine ⟨SetTable.keys_add.trans sound.keys, fun u x member => ?_⟩
  rcases SetTable.mem_get_add.mp member with old | ⟨rfl, key, new⟩
  · exact sound.follows u x old
  · have known : g.isNonterminal u = true := isNonterminal_iff.mpr (sound.keys ▸ key)
    have begins {y : Symbol} (h : y ∈ firstOfSequence g.first rest) : g.Begins (spelled rest) y :=
      (soundFirst_first noEpsilon).begins_of_mem_firstOfSequence noEpsilon h
    -- either the symbols behind begin with `x`, or they vanish and `x` follows them all
    rcases mem_startsOf.mp new with ⟨full, here⟩ | ⟨empty, behind⟩
    · exact (begins here).follows full noEpsilon chosen known
    · have vanishes := derives_nil_of_begins_epsilon (begins empty)
      exact (sound.follows s x behind).of_vanishes vanishes noEpsilon chosen known

theorem soundFollow_follow (noEpsilon : g.isNonterminal epsilon = false) :
    g.SoundFollow start (g.follow start) := by
  refine SetTable.saturate_induction ⟨SetTable.keys_add.trans keys_emptyTable, fun s x member => ?_⟩
    (fun _ listed _ sound => sound.meet noEpsilon listed) _
  obtain ⟨rfl, -, rfl⟩ := mem_get_followStart.mp member
  exact .inr ⟨rfl, [], .refl _⟩

/-! ### Nothing missing -/

/-- Whether all that can come right after a nonterminal in a form, given what can come
after the form, is in the FOLLOW set of the nonterminal. -/
def FollowedBy (g : Grammar) (start : Symbol) (u : List Symbol) (following : SymbolSet) : Prop :=
  ∀ before t after, u = before ++ t :: after → g.isNonterminal t = true →
    ∀ x ∈ startsOf g.first following after, x ∈ (g.follow start).get t

theorem FollowedBy.mono (h : g.FollowedBy start u more) (subset : ∀ x ∈ following, x ∈ more) :
    g.FollowedBy start u following :=
  fun before t after split known x begins =>
    h before t after split known x (startsOf_mono subset begins)

theorem followedBy_singleton_iff (known : g.isNonterminal s = true) :
    g.FollowedBy start [s] following ↔ ∀ x ∈ following, x ∈ (g.follow start).get s := by
  have begins_iff (x : Symbol) : x ∈ startsOf g.first following [] ↔ x ∈ following := by
    simp [mem_startsOf]
  constructor
  · intro h x member
    exact h [] s [] rfl known x ((begins_iff x).mpr member)
  · intro h before t after split _ x begins
    obtain ⟨rfl, rfl, rfl⟩ : before = [] ∧ t = s ∧ after = [] := by
      cases before with
      | nil => simpa [eq_comm] using split
      | cons => simp at split
    exact h x ((begins_iff x).mp begins)

/-- The whole input is followed by the end marker. -/
theorem followedBy_start (known : g.isNonterminal start = true) :
    g.FollowedBy start [start] (.singleton endMarker) :=
  (followedBy_singleton_iff known).mpr fun _ member =>
    SymbolSet.mem_singleton.mp member ▸ endMarker_mem_get_follow known

/-- The first part of a form is followed by what the second part begins with. -/
theorem followedBy_append_iff : g.FollowedBy start (u ++ v) following ↔
    g.FollowedBy start u (startsOf g.first following v) ∧ g.FollowedBy start v following := by
  constructor
  · intro h
    refine ⟨fun before t after split known x begins => ?_, fun before t after split => ?_⟩
    · exact h before t (after ++ v) (by simp [split]) known x (mem_startsOf_append.mpr begins)
    · exact h (u ++ before) t after (by simp [split])
  · rintro ⟨first, second⟩ before t after split known x begins
    -- the nonterminal stands in one of the two parts
    rcases List.append_eq_append_iff.mp split with ⟨front, rfl, later⟩ | ⟨back, rfl, later⟩
    · exact second front t after later known x begins
    · cases back with
      | nil => exact second [] t after later.symm known x begins
      | cons _ back =>
        obtain ⟨rfl, rfl⟩ := List.cons.inj later
        exact first before t back rfl known x (mem_startsOf_append.mp begins)

/-- The symbols of a production are followed by what follows its nonterminal. -/
theorem followedBy_spelled (noEpsilon : g.isNonterminal epsilon = false)
    (chosen : p ∈ g.productions s) :
    g.FollowedBy start (spelled p) ((g.follow start).get s) := by
  intro before t after split known x begins
  -- the place of `t` in the production, where `ε` has not been left out
  obtain ⟨p₁, p₂, rfl, -, rest⟩ := List.filter_eq_append_iff.mp split
  obtain ⟨gaps, p₃, rfl, -, -, rfl⟩ := List.filter_eq_cons_iff.mp rest
  rw [← List.append_assoc] at chosen
  exact mem_get_follow_of_mem_startsOf chosen known
    ((mem_startsOf_spelled (epsilon_not_mem_keys_first noEpsilon)).mp begins)

/-- A step of a derivation takes nothing away from what a form begins with where
something follows it. -/
theorem Rewrites.mem_startsOf (h : g.Rewrites u v) (noEpsilon : g.isNonterminal epsilon = false)
    (member : x ∈ startsOf g.first following v) : x ∈ startsOf g.first following u := by
  rw [LineBasic.mem_startsOf] at member ⊢
  exact member.imp (fun ⟨full, begins⟩ => ⟨full, h.mem_firstOfSequence noEpsilon begins⟩)
    (fun ⟨empty, behind⟩ => ⟨h.mem_firstOfSequence noEpsilon empty, behind⟩)

/-- A step of a derivation keeps what comes after each nonterminal in its FOLLOW set. -/
theorem FollowedBy.rewrite (h : g.FollowedBy start u following) (step : g.Rewrites u v)
    (noEpsilon : g.isNonterminal epsilon = false) : g.FollowedBy start v following := by
  obtain @⟨s, p, left, right, chosen⟩ := step
  have known := isNonterminal_of_mem_productions chosen
  obtain ⟨hleft, hright⟩ := followedBy_append_iff.mp h
  rw [← List.singleton_append, followedBy_append_iff, followedBy_singleton_iff known] at hright
  rw [List.append_assoc, followedBy_append_iff, followedBy_append_iff]
  refine ⟨hleft.mono fun x begins => ?_, ?_, hright.2⟩
  · -- what stands on the left saw the nonterminal, which begins as its production does
    exact (Rewrites.replace [] right chosen).mem_startsOf noEpsilon begins
  · exact (followedBy_spelled noEpsilon chosen).mono hright.1

theorem FollowedBy.derive (h : g.FollowedBy start u following) (derives : g.Derives u v)
    (noEpsilon : g.isNonterminal epsilon = false) : g.FollowedBy start v following := by
  induction derives with
  | refl => exact h
  | tail _ step ih => exact ih.rewrite step noEpsilon

/-- What can follow a nonterminal is in its FOLLOW set. -/
theorem Follows.mem_get_follow (h : g.Follows start s t)
    (noEpsilon : g.isNonterminal epsilon = false) (hstart : g.isNonterminal start = true)
    (known : g.isNonterminal s = true) : t ∈ (g.follow start).get s := by
  rcases h with ⟨terminal, n, before, after, nonterminal, derives⟩ | ⟨rfl, before, derives⟩
  · -- nothing need come after the form that `n` derives
    have alone : g.FollowedBy start [n] ∅ :=
      (followedBy_singleton_iff nonterminal).mpr fun x member =>
        absurd member (SymbolSet.not_mem_empty x)
    refine alone.derive derives noEpsilon before s (t :: after) rfl known t ?_
    exact mem_startsOf.mpr (.inl ⟨terminal.1, mem_firstOfSequence_of_isTerminal terminal after⟩)
  · refine (followedBy_start hstart).derive derives noEpsilon before s [] rfl known endMarker ?_
    exact mem_startsOf.mpr (.inr ⟨mem_firstOfSequence_nil.mpr rfl, SymbolSet.mem_singleton.mpr rfl⟩)

/-- FOLLOW of a nonterminal holds exactly what can come right after it. -/
theorem mem_get_follow_iff (noEpsilon : g.isNonterminal epsilon = false)
    (hstart : g.isNonterminal start = true) (known : g.isNonterminal s = true) :
    t ∈ (g.follow start).get s ↔ g.Follows start s t :=
  ⟨(soundFollow_follow noEpsilon).follows s t, fun h => h.mem_get_follow noEpsilon hstart known⟩

/-- For a start symbol that is a nonterminal, the search for the FOLLOW sets comes to
an end. The set of a nonterminal then holds a symbol just when this is a terminal and
stands behind the nonterminal in a form that some nonterminal derives, or when it is
the end marker and the start symbol derives a form that ends with the nonterminal. It
never holds `ε`. -/
theorem follow_exact (noEpsilon : g.isNonterminal epsilon = false)
    (hstart : g.isNonterminal start = true) :
    g.from? start g.follow = .ok (g.follow start) ∧
      SetTable.Settles g.firstRequirements g.emptyTable g.first ∧
      SetTable.Settles (g.followRequirements g.first)
        (g.emptyTable.add start (.singleton endMarker)) (g.follow start) ∧
      ∀ s, g.isNonterminal s = true →
        (∀ t, t ∈ (g.follow start).get s ↔
          ((t ≠ epsilon ∧ g.isNonterminal t = false) ∧ ∃ n before after,
            g.isNonterminal n = true ∧ g.Derives [n] (before ++ s :: t :: after)) ∨
          (t = endMarker ∧ ∃ before, g.Derives [start] (before ++ [s]))) ∧
        epsilon ∉ (g.follow start).get s := by
  refine ⟨if_pos hstart, SetTable.settles_saturate meets_first,
    SetTable.settles_saturate meets_follow, fun s known => ⟨fun t => ?_, fun member => ?_⟩⟩
  · exact mem_get_follow_iff noEpsilon hstart known
  · rcases (mem_get_follow_iff noEpsilon hstart known).mp member with ⟨terminal, -⟩ | ⟨same, -⟩
    · exact terminal.1 rfl
    · exact absurd same (by decide)

theorem follow_exact_entangled :
    entangled.isNonterminal epsilon = false ∧ entangled.isNonterminal "s" = true ∧
      (∃ n before after, entangled.isNonterminal n = true ∧
        entangled.Derives [n] (before ++ "t" :: "b" :: after)) ∧
      ¬ (∃ before, entangled.Derives ["s"] (before ++ ["t"])) ∧
      ¬ ∃ n before after, entangled.isNonterminal n = true ∧
        entangled.Derives [n] (before ++ "s" :: "b" :: after) := by
  have noEpsilon : entangled.isNonterminal epsilon = false := by decide
  have hstart : entangled.isNonterminal "s" = true := by decide
  have sets := (follow_exact noEpsilon hstart).2.2.2
  have behind_t := (sets "t" (by decide)).1
  have behind_s := (sets "s" hstart).1
  refine ⟨noEpsilon, hstart, ?_, fun ends => ?_, fun stands => ?_⟩
  · rcases (behind_t "b").mp (by decide +kernel) with ⟨-, stands⟩ | ⟨same, -⟩
    · exact stands
    · exact absurd same (by decide)
  · exact absurd ((behind_t endMarker).mpr (.inr ⟨rfl, ends⟩)) (by decide +kernel)
  · exact absurd ((behind_s "b").mpr (.inl ⟨by decide, stands⟩)) (by decide +kernel)

end Grammar

end LineBasic
