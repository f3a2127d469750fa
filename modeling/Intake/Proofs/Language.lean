import Intake.Pattern.Match

/-!
# Proofs — Language — what a pattern matches

Matching tries one way after another and remembers what groups have matched.  A node is *regular* if
it refers back to no group and has no repetition that commits itself to its first way.  Then neither
the order of the ways nor the groups decide whether there is a match: a node leads from one place of
a text to others (`Node.Leads`), and the matcher goes on from each of them until it finds one that
will do (`Node.run_finds`).  So a regular node matches a text if it leads from the start of it to
the end (`Node.isMatch_iff`).

A repetition gives up after a round that has not moved.  Nothing is lost by that, because such a
round leads to where it began, and the same place is reached without it (`Rounds.exists_moving`).
-/

namespace Intake.Pattern

/-! ### Places -/

/-- A place in a text: the character before it, and the text from there on. -/
structure Place where
  before : Option Char
  rest   : List Char

def State.place (s : State) : Place := ⟨s.before, s.rest⟩

namespace Place

def start (s : List Char) : Place := ⟨none, s⟩

/-- The state at a place in which no group has matched anything. -/
def state (p : Place) : State := ⟨p.before, p.rest, []⟩

/-- The second place is behind a run of characters that begins at the first. -/
def Passes (p : Place) (run : List Char) (q : Place) : Prop :=
  p.rest = run ++ q.rest ∧ q.before = run.getLast?.or p.before

/-- The second place is behind one character of a class that begins at the first. -/
def Steps (f : Char → Bool) (p q : Place) : Prop := ∃ c, f c = true ∧ p.Passes [c] q

theorem passes_nil (p : Place) : p.Passes [] p := ⟨rfl, rfl⟩

theorem Passes.trans {p q r : Place} {run more : List Char} (h₁ : p.Passes run q) (h₂ : q.Passes more r) :
    p.Passes (run ++ more) r := by
  obtain ⟨hrest, hbefore⟩ := h₁
  obtain ⟨hrest', hbefore'⟩ := h₂
  refine ⟨by rw [hrest, hrest', List.append_assoc], ?_⟩
  rw [hbefore', hbefore, List.getLast?_append, Option.or_assoc]

/-- Only the empty run leads to a place with as much text behind it. -/
theorem Passes.eq_of_length {p q : Place} {run : List Char} (h : p.Passes run q)
    (hl : p.rest.length ≤ q.rest.length) : q = p := by
  obtain ⟨hrest, hbefore⟩ := h
  have hrun : run = [] := by
    rw [hrest, List.length_append] at hl
    exact List.length_eq_zero_iff.mp (by omega)
  subst hrun
  obtain ⟨before, rest⟩ := p
  obtain ⟨before', rest'⟩ := q
  cases hrest
  cases hbefore
  rfl

/-- Every text in front of which a run stands is the text from some place on. -/
theorem exists_passes_iff {p : Place} {run rest : List Char} :
    (∃ q, p.Passes run q ∧ q.rest = rest) ↔ p.rest = run ++ rest := by
  constructor
  · rintro ⟨q, hq, rfl⟩
    exact hq.1
  · intro h
    exact ⟨⟨run.getLast?.or p.before, rest⟩, ⟨h, rfl⟩, rfl⟩

theorem passes_nil_iff {p q : Place} : p.Passes [] q ↔ q = p := by
  constructor
  · intro h
    exact h.eq_of_length (by rw [h.1]; exact Nat.le_refl _)
  · rintro rfl
    exact q.passes_nil

theorem passes_append_iff {p q : Place} {run more : List Char} :
    p.Passes (run ++ more) q ↔ ∃ u, p.Passes run u ∧ u.Passes more q := by
  constructor
  · rintro ⟨hrest, hbefore⟩
    rw [List.append_assoc] at hrest
    obtain ⟨u, hu, hurest⟩ := exists_passes_iff.mpr hrest
    refine ⟨u, hu, hurest, ?_⟩
    rw [hbefore, hu.2, List.getLast?_append, Option.or_assoc]
  · rintro ⟨u, hu, hq⟩
    exact hu.trans hq

theorem exists_steps_iff {f : Char → Bool} {p : Place} :
    (∃ q, p.Steps f q) ↔ ∃ c rest, p.rest = c :: rest ∧ f c = true := by
  constructor
  · rintro ⟨q, c, hc, hq⟩
    exact ⟨c, q.rest, hq.1, hc⟩
  · rintro ⟨c, rest, hrest, hc⟩
    obtain ⟨q, hq, -⟩ := exists_passes_iff.mpr (show p.rest = [c] ++ rest from hrest)
    exact ⟨q, c, hc, hq⟩

end Place

/-! ### Rounds -/

/-- So many steps of a relation, one after the other. -/
def Rounds (R : Place → Place → Prop) : Nat → Place → Place → Prop
  | 0,     p, q => q = p
  | n + 1, p, q => ∃ u, R p u ∧ Rounds R n u q

/-- The second place is further on than the first. -/
def Moving (R : Place → Place → Prop) (p q : Place) : Prop := R p q ∧ q.rest.length < p.rest.length

/-- A relation that leads nowhere but on in the text. -/
def Onward (R : Place → Place → Prop) : Prop := ∀ p q, R p q → ∃ run, p.Passes run q

namespace Rounds

variable {R : Place → Place → Prop}

theorem add_iff {m n : Nat} {p q : Place} :
    Rounds R (m + n) p q ↔ ∃ u, Rounds R m p u ∧ Rounds R n u q := by
  induction m generalizing p with
  | zero => simp only [Nat.zero_add, Rounds, exists_eq_left]
  | succ m ih =>
      simp only [Nat.add_right_comm m 1 n, Rounds, ih]
      constructor
      · rintro ⟨u, hu, w, hw, hq⟩
        exact ⟨w, ⟨u, hu, hw⟩, hq⟩
      · rintro ⟨w, ⟨u, hu, hw⟩, hq⟩
        exact ⟨u, hu, w, hw, hq⟩

/-- There are no more rounds that move than there are characters to move over. -/
theorem le_length {n : Nat} {p q : Place} (h : Rounds (Moving R) n p q) : n ≤ p.rest.length := by
  induction n generalizing p with
  | zero => exact Nat.zero_le _
  | succ n ih =>
      obtain ⟨u, ⟨-, hu⟩, hq⟩ := h
      have hn := ih hq
      omega

theorem onward (hR : Onward R) (n : Nat) : Onward (Rounds R n) := by
  induction n with
  | zero =>
      intro p q hq
      exact ⟨[], hq ▸ p.passes_nil⟩
  | succ n ih =>
      rintro p q ⟨u, hu, hq⟩
      obtain ⟨run, hrun⟩ := hR p u hu
      obtain ⟨more, hmore⟩ := ih u q hq
      exact ⟨run ++ more, hrun.trans hmore⟩

/-- Rounds that do not move can be left out. -/
theorem exists_moving (hR : Onward R) {n : Nat} {p q : Place} (h : Rounds R n p q) :
    ∃ j ≤ n, Rounds (Moving R) j p q := by
  induction n generalizing p with
  | zero => exact ⟨0, Nat.le_refl 0, h⟩
  | succ n ih =>
      obtain ⟨u, hu, hq⟩ := h
      obtain ⟨j, hj, hmoving⟩ := ih hq
      by_cases hlt : u.rest.length < p.rest.length
      · exact ⟨j + 1, Nat.succ_le_succ hj, u, ⟨hu, hlt⟩, hmoving⟩
      · obtain ⟨run, hrun⟩ := hR p u hu
        obtain rfl := hrun.eq_of_length (Nat.not_lt.mp hlt)
        exact ⟨j, Nat.le_succ_of_le hj, hmoving⟩

/-- Characters of a class, one by one, are a run of them. -/
theorem steps_iff {f : Char → Bool} {n : Nat} {p q : Place} :
    Rounds (Place.Steps f) n p q ↔
      ∃ run, run.length = n ∧ (∀ c ∈ run, f c = true) ∧ p.Passes run q := by
  induction n generalizing p with
  | zero =>
      constructor
      · rintro rfl
        exact ⟨[], rfl, nofun, q.passes_nil⟩
      · rintro ⟨run, hn, -, hq⟩
        obtain rfl := List.length_eq_zero_iff.mp hn
        exact Place.passes_nil_iff.mp hq
  | succ n ih =>
      constructor
      · rintro ⟨u, ⟨c, hc, hu⟩, hq⟩
        obtain ⟨run, rfl, hrun, hpass⟩ := ih.mp hq
        exact ⟨c :: run, rfl, List.forall_mem_cons.mpr ⟨hc, hrun⟩, hu.trans hpass⟩
      · rintro ⟨run, hn, hrun, hq⟩
        obtain ⟨c, run, rfl⟩ := List.exists_cons_of_length_eq_add_one hn
        obtain ⟨hc, hrest⟩ := List.forall_mem_cons.mp hrun
        obtain ⟨u, hu, hq⟩ := Place.passes_append_iff.mp (show p.Passes ([c] ++ run) q from hq)
        exact ⟨u, ⟨c, hc, hu⟩, ih.mpr ⟨run, Nat.succ.inj hn, hrest, hq⟩⟩

end Rounds

/-! ### Where a node leads -/

/-- The places that a node leads to from a place, on whatever way. -/
def Node.Leads : Node → Place → Place → Prop
  | .empty,             p, q => q = p
  | .char c,            p, q => p.Steps (· == c) q
  | .any,               p, q => p.Steps (· != '\n') q
  | .set negated items, p, q => p.Steps (fun c => items.any (·.holds c) != negated) q
  | .anchor a,          p, q => a.holds p.state = true ∧ q = p
  | .seq a b,           p, q => ∃ u, a.Leads p u ∧ b.Leads u q
  | .alt a b,           p, q => a.Leads p q ∨ b.Leads p q
  | .repeated lo hi _ a, p, q => ∃ n, lo ≤ n ∧ (∀ m ∈ hi, n ≤ m) ∧ Rounds a.Leads n p q
  | .group _ a,         p, q => a.Leads p q
  | .look false a,      p, q => (∃ u, a.Leads p u) ∧ q = p
  | .look true a,       p, q => (¬ ∃ u, a.Leads p u) ∧ q = p
  | .reference _,       _, _ => False

/-- Nothing in the node depends on groups or on the order of ways, and no bounds are reversed. -/
def Node.isRegular : Node → Bool
  | .empty | .char _ | .any | .set _ _ | .anchor _ => true
  | .seq a b | .alt a b => a.isRegular && b.isRegular
  | .repeated lo hi app a => a.isRegular && app != .possessive && hi.all (lo ≤ ·)
  | .group _ a | .look _ a => a.isRegular
  | .reference _ => false

theorem Node.leads_onward (a : Node) : Onward a.Leads := by
  induction a with
  | empty =>
      intro p q hq
      exact ⟨[], hq ▸ p.passes_nil⟩
  | char | any | set =>
      rintro p q ⟨c, -, hq⟩
      exact ⟨[c], hq⟩
  | anchor =>
      rintro p q ⟨-, hq⟩
      exact ⟨[], hq ▸ p.passes_nil⟩
  | seq a b iha ihb =>
      rintro p q ⟨u, hu, hq⟩
      obtain ⟨run, hrun⟩ := iha p u hu
      obtain ⟨more, hmore⟩ := ihb u q hq
      exact ⟨run ++ more, hrun.trans hmore⟩
  | alt a b iha ihb =>
      rintro p q (h | h)
      · exact iha p q h
      · exact ihb p q h
  | repeated lo hi app a ih =>
      rintro p q ⟨n, -, -, hq⟩
      exact Rounds.onward ih n p q hq
  | group i a ih => exact ih
  | look negated a =>
      intro p q h
      have hq : q = p := by cases negated <;> exact h.2
      exact ⟨[], hq ▸ p.passes_nil⟩
  | reference => exact nofun

/-! ### What the matcher finds -/

/-- A continuation that sees no groups. -/
def Continuation.IsBlind (k : Continuation) : Prop :=
  ∀ s t : State, s.place = t.place → (k s).isSome = (k t).isSome

/-- From every state, a matcher goes on successfully if the relation leads to a place from where
that succeeds. -/
def Matcher.Finds (m : Matcher) (R : Place → Place → Prop) : Prop :=
  ∀ s k, Continuation.IsBlind k →
    ((m s k).isSome = true ↔ ∃ q, R s.place q ∧ (k q.state).isSome = true)

open Continuation (IsBlind)

variable {m : Matcher} {R : Place → Place → Prop}

theorem Continuation.isBlind_some : IsBlind some := fun _ _ _ => rfl

theorem Matcher.Finds.isBlind (h : Matcher.Finds m R) {k : Continuation} (hk : IsBlind k) :
    IsBlind fun s => m s k := fun s t he => by
  rw [Bool.eq_iff_iff, h s k hk, h t k hk, he]

theorem isSome_step_iff {f : Char → Bool} {s : State} {k : Continuation} (hk : IsBlind k) :
    (s.step f k).isSome = true ↔ ∃ q, s.place.Steps f q ∧ (k q.state).isSome = true := by
  obtain ⟨before, rest, groups⟩ := s
  cases rest with
  | nil =>
      refine ⟨nofun, ?_⟩
      rintro ⟨q, ⟨c, -, hq⟩, -⟩
      cases hq.1
  | cons c rest =>
      have hplace : (k ⟨some c, rest, groups⟩).isSome = (k (Place.state ⟨some c, rest⟩)).isSome := hk _ _ rfl
      simp only [State.step]
      constructor
      · intro h
        split at h
        · rename_i hc
          exact ⟨⟨some c, rest⟩, ⟨c, hc, rfl, rfl⟩, hplace ▸ h⟩
        · cases h
      · rintro ⟨⟨before', rest'⟩, ⟨d, hd, hrest, hbefore⟩, h⟩
        cases hrest
        cases hbefore
        rw [if_pos hd, hplace]
        exact h

theorem times_finds (h : Matcher.Finds m R) (n : Nat) : Matcher.Finds (times m n) (Rounds R n) := by
  induction n with
  | zero =>
      intro s k hk
      simp only [times, Rounds, exists_eq_left]
      rw [hk s s.place.state rfl]
  | succ n ih =>
      intro s k hk
      simp only [times, Rounds]
      rw [h s _ (ih.isBlind hk)]
      constructor
      · rintro ⟨u, hu, htimes⟩
        obtain ⟨q, hq, hend⟩ := (ih u.state k hk).mp htimes
        exact ⟨q, ⟨u, hu, hq⟩, hend⟩
      · rintro ⟨q, ⟨u, hu, hq⟩, hend⟩
        exact ⟨u, hu, (ih u.state k hk).mpr ⟨q, hq, hend⟩⟩

/-- A further round is tried unless the last one began at the same place, and so is to stop here. -/
theorem isSome_further_succ {greedy : Bool} {n : Nat} {last : Option Nat} {s : State} {k : Continuation} :
    (further m greedy (n + 1) last s k).isSome = true ↔ (k s).isSome = true ∨
      last ≠ some s.rest.length ∧ (m s fun t => further m greedy n (some s.rest.length) t k).isSome = true := by
  simp only [further]
  split
  · rename_i hlast
    simp [hlast]
  · rename_i hlast
    cases greedy with
    | true => simp [hlast, or_comm]
    | false => simp [hlast]

theorem isBlind_further (h : Matcher.Finds m R) {greedy : Bool} {k : Continuation} (hk : IsBlind k) (n : Nat)
    (last : Option Nat) : IsBlind fun s => further m greedy n last s k := by
  induction n generalizing last with
  | zero => exact hk
  | succ n ih =>
      intro s t he
      have hrest : s.rest = t.rest := congrArg Place.rest he
      have hround := h.isBlind (ih (some t.rest.length)) s t he
      rw [Bool.eq_iff_iff, isSome_further_succ, isSome_further_succ, hk s t he, hrest]
      simp only at hround
      rw [hround]

theorem exists_rounds_of_further (h : Matcher.Finds m R) {greedy : Bool} {k : Continuation} (hk : IsBlind k)
    {n : Nat} {last : Option Nat} {s : State} (hs : (further m greedy n last s k).isSome = true) :
    ∃ j ≤ n, ∃ q, Rounds R j s.place q ∧ (k q.state).isSome = true := by
  induction n generalizing last s with
  | zero =>
      simp only [further] at hs
      exact ⟨0, Nat.le_refl 0, s.place, rfl, hk s s.place.state rfl ▸ hs⟩
  | succ n ih =>
      rcases isSome_further_succ.mp hs with hs | ⟨-, hs⟩
      · exact ⟨0, Nat.zero_le _, s.place, rfl, hk s s.place.state rfl ▸ hs⟩
      · obtain ⟨u, hu, hmore⟩ := (h s _ (isBlind_further h hk n _)).mp hs
        obtain ⟨j, hj, q, hq, hend⟩ := ih hmore
        exact ⟨j + 1, Nat.succ_le_succ hj, q, ⟨u, hu, hq⟩, hend⟩

/-- Rounds that move are tried as long as there are any left. -/
theorem further_of_moving (h : Matcher.Finds m R) {greedy : Bool} {k : Continuation} (hk : IsBlind k)
    {j n : Nat} (hj : j ≤ n) {last : Option Nat} {s : State} {q : Place} (hlast : last ≠ some s.rest.length)
    (hq : Rounds (Moving R) j s.place q) (hend : (k q.state).isSome = true) :
    (further m greedy n last s k).isSome = true := by
  induction n generalizing j last s with
  | zero =>
      obtain rfl := Nat.le_zero.mp hj
      cases hq
      rwa [further, hk s s.place.state rfl]
  | succ n ih =>
      rw [isSome_further_succ]
      cases j with
      | zero =>
          cases hq
          exact .inl (by rwa [hk s s.place.state rfl])
      | succ j =>
          obtain ⟨u, ⟨hu, hlt⟩, hq⟩ := hq
          refine .inr ⟨hlast, (h s _ (isBlind_further h hk n _)).mpr ⟨u, hu, ?_⟩⟩
          -- the next round begins further on than this one
          have hnext : some s.rest.length ≠ some u.rest.length := fun he =>
            absurd (Option.some.inj he) (Nat.ne_of_gt hlt)
          exact ih (s := u.state) (Nat.le_of_succ_le_succ hj) hnext hq

theorem repetition_finds (h : Matcher.Finds m R) (hR : Onward R) {least : Nat} {most : Option Nat}
    (hb : ∀ n ∈ most, least ≤ n) (greedy : Bool) :
    Matcher.Finds (repetition m least most greedy) fun p q =>
      ∃ n, least ≤ n ∧ (∀ m ∈ most, n ≤ m) ∧ Rounds R n p q := by
  intro s k hk
  simp only [repetition]
  rw [times_finds h least s _ fun t u he => by
    have hrest : t.rest = u.rest := congrArg Place.rest he
    rw [hrest]
    exact isBlind_further h hk _ none t u he]
  constructor
  · rintro ⟨u, hu, hfurther⟩
    obtain ⟨j, hj, q, hq, hend⟩ := exists_rounds_of_further h hk hfurther
    refine ⟨q, ⟨least + j, Nat.le_add_right _ _, fun n hn => ?_, Rounds.add_iff.mpr ⟨u, hu, hq⟩⟩, hend⟩
    obtain rfl := Option.mem_def.mp hn
    have hle := hb n rfl
    simp only at hj
    omega
  · rintro ⟨q, ⟨n, hn, hmost, hq⟩, hend⟩
    obtain ⟨j, rfl⟩ := Nat.exists_eq_add_of_le hn
    obtain ⟨u, hu, hq⟩ := Rounds.add_iff.mp hq
    obtain ⟨i, hi, hmoving⟩ := Rounds.exists_moving hR hq
    refine ⟨u, hu, further_of_moving h hk ?_ nofun hmoving hend⟩
    have hlength : i ≤ u.rest.length := hmoving.le_length
    cases most with
    | none => exact Nat.le_succ_of_le hlength
    | some n =>
        have hle := hmost n rfl
        show i ≤ min (n - least) (u.rest.length + 1)
        omega

/-- **Backtracking.**  A regular node finds whatever it leads to. -/
theorem Node.run_finds {a : Node} (h : a.isRegular = true) : Matcher.Finds a.run a.Leads := by
  induction a with
  | empty =>
      intro s k hk
      simp only [run, Leads, exists_eq_left]
      rw [hk s s.place.state rfl]
  | char | any | set =>
      intro s k hk
      simp only [run, Leads]
      exact isSome_step_iff hk
  | anchor a =>
      intro s k hk
      have hholds : a.holds s = a.holds s.place.state := by cases a <;> rfl
      simp only [run, Leads, hholds, and_assoc, exists_and_left, exists_eq_left]
      split
      · rename_i ha
        rw [hk s s.place.state rfl, and_iff_right ha]
      · rename_i ha
        exact ⟨nofun, fun hl => absurd hl.1 ha⟩
  | seq a b iha ihb =>
      rw [isRegular, Bool.and_eq_true] at h
      intro s k hk
      simp only [run, Leads]
      rw [iha h.1 s _ ((ihb h.2).isBlind hk)]
      constructor
      · rintro ⟨u, hu, hb⟩
        obtain ⟨q, hq, hend⟩ := (ihb h.2 u.state k hk).mp hb
        exact ⟨q, ⟨u, hu, hq⟩, hend⟩
      · rintro ⟨q, ⟨u, hu, hq⟩, hend⟩
        exact ⟨u, hu, (ihb h.2 u.state k hk).mpr ⟨q, hq, hend⟩⟩
  | alt a b iha ihb =>
      rw [isRegular, Bool.and_eq_true] at h
      intro s k hk
      have hor : ((a.run s k) <|> (b.run s k)).isSome = true ↔
          (a.run s k).isSome = true ∨ (b.run s k).isSome = true := by simp
      simp only [run, Leads]
      rw [hor, iha h.1 s k hk, ihb h.2 s k hk]
      constructor
      · rintro (⟨q, hq, hend⟩ | ⟨q, hq, hend⟩)
        · exact ⟨q, .inl hq, hend⟩
        · exact ⟨q, .inr hq, hend⟩
      · rintro ⟨q, hq | hq, hend⟩
        · exact .inl ⟨q, hq, hend⟩
        · exact .inr ⟨q, hq, hend⟩
  | repeated lo hi app a ih =>
      simp only [isRegular, Bool.and_eq_true, Option.all_eq_true, decide_eq_true_eq, bne_iff_ne] at h
      obtain ⟨⟨ha, happ⟩, hb⟩ := h
      have hfinds := repetition_finds (ih ha) a.leads_onward hb
      cases app with
      | greedy => exact hfinds true
      | lazy => exact hfinds false
      | possessive => exact absurd rfl happ
  | group i a ih =>
      intro s k hk
      simp only [run, Leads]
      rw [ih h s (fun t => k (t.capture i (s.passed t))) fun t u he => hk _ _ he]
      refine exists_congr fun q => and_congr_right fun _ => ?_
      rw [hk (q.state.capture i (s.passed q.state)) q.state rfl]
  | look negated a ih =>
      intro s k hk
      have hsome : (a.run s some).isSome = true ↔ ∃ u, a.Leads s.place u := by
        rw [ih h s some Continuation.isBlind_some]
        simp
      cases negated with
      | false =>
          simp only [run, Leads, and_assoc, exists_and_left, exists_eq_left]
          rw [← hsome]
          split
          · rename_i t ht
            rw [hk { s with groups := t.groups } s.place.state rfl, ht]
            exact (and_iff_right rfl).symm
          · rename_i ht
            rw [ht]
            exact ⟨nofun, fun hl => hl.1⟩
      | true =>
          simp only [run, Leads, and_assoc, exists_and_left, exists_eq_left]
          rw [← hsome]
          split
          · rename_i t ht
            rw [ht]
            exact ⟨nofun, fun hl => absurd rfl hl.1⟩
          · rename_i ht
            rw [ht, hk s s.place.state rfl]
            exact (and_iff_right nofun).symm
  | reference => cases h

/-- **What a pattern matches.**  A regular node matches a text if it leads from its start to its
end. -/
theorem Node.isMatch_iff {a : Node} (h : a.isRegular = true) {s : List Char} :
    a.isMatch s = true ↔ ∃ q, a.Leads (.start s) q ∧ q.rest = [] := by
  have hblind : IsBlind fun t => if t.rest.isEmpty then some t else none := by
    intro t u he
    have hrest : t.rest = u.rest := congrArg Place.rest he
    simp only [hrest]
    split <;> rfl
  rw [isMatch, run_finds h (.start s) _ hblind]
  refine exists_congr fun q => and_congr_right fun _ => ?_
  cases hq : q.rest <;> simp [Place.state, hq]

/-! ### Classes of characters -/

/-- A repetition of a node that steps over one character of a class leads over a run of that
class. -/
theorem Node.leads_repeated_iff {a : Node} {f : Char → Bool} (ha : a.Leads = Place.Steps f) {lo : Nat}
    {hi : Option Nat} {app : Appetite} {p q : Place} :
    (Node.repeated lo hi app a).Leads p q ↔ ∃ run, lo ≤ run.length ∧ (∀ m ∈ hi, run.length ≤ m) ∧
      (∀ c ∈ run, f c = true) ∧ p.Passes run q := by
  simp only [Leads, ha, Rounds.steps_iff]
  constructor
  · rintro ⟨n, hlo, hhi, run, rfl, hrun, hq⟩
    exact ⟨run, hlo, hhi, hrun, hq⟩
  · rintro ⟨run, hlo, hhi, hrun, hq⟩
    exact ⟨_, hlo, hhi, run, rfl, hrun, hq⟩

end Intake.Pattern
