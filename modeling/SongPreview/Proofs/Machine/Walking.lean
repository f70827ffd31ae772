import SongPreview.Machine.Tree

/-!
# Ways through a tree

Where a way ends depends on the directories and the links of the tree alone. The way to
the last step leads to a directory, whatever the last step is; and as long as everything
in a tree stands in a directory, a way on which every link is followed does not end at a
link.
-/

namespace SongPreview.Tree

variable {t t' : Tree} {follow : Bool} {links : Nat} {here place out : Location} {name : String}
  {rest steps : List Step}

/-- How a way goes on behind a link, where `links` links are left. -/
def beyond (t : Tree) (follow : Bool) : (links : Nat) → Location → List Step →
    Except Fault Location
  | 0 => fun _ _ => .error .tooManyLinks
  | links + 1 => t.walk follow links

theorem walk_eq : t.walk follow links = t.walkTo follow (t.beyond follow links) := by
  cases links <;> rfl

/-! ### Single steps -/

@[simp] theorem get?_nil : t.get? [] = some .directory := rfl

@[simp] theorem walk_nil : t.walk follow links here [] = .ok here := by
  rw [walk_eq]
  rfl

/-- Every step starts from a directory. -/
theorem walk_cons_of_ne {step : Step} (h : t.get? here ≠ some .directory) :
    t.walk follow links here (step :: rest) = .error .notDirectory := by
  simp [walk_eq, walkTo, h]

theorem walk_stay (h : t.get? here = some .directory) :
    t.walk follow links here (.stay :: rest) = t.walk follow links here rest := by
  simp [walk_eq, walkTo, h]

theorem walk_up (h : t.get? here = some .directory) :
    t.walk follow links here (.up :: rest) = t.walk follow links here.tail rest := by
  simp [walk_eq, walkTo, h]

theorem walk_name_of_long (h : t.get? here = some .directory)
    (hlong : nameLimit < name.utf8ByteSize) :
    t.walk follow links here (.name name :: rest) = .error .nameTooLong := by
  simp [walk_eq, walkTo, h, hlong]

/-- A link that is followed sends the way on. -/
theorem walk_name_of_link {target : Path} (h : t.get? here = some .directory)
    (hshort : name.utf8ByteSize ≤ nameLimit) (hlink : t.get? (name :: here) = some (.link target))
    (hfollow : rest = [] → follow = true) :
    t.walk follow links here (.name name :: rest) =
      t.beyond follow links (if target.isAbsolute then [] else here)
        (Step.ofPath target ++ rest) := by
  have hfollow' : ¬ (rest = [] ∧ follow = false) := fun ⟨hnil, hoff⟩ => by
    simp [hfollow hnil] at hoff
  simp [walk_eq, walkTo, h, Nat.not_lt.mpr hshort, hlink, hfollow']

/-- A name goes to its place, unless a link that is followed stands there, or nothing while the
way goes on. -/
theorem walk_name (h : t.get? here = some .directory) (hshort : name.utf8ByteSize ≤ nameLimit)
    (hlink : ∀ target, t.get? (name :: here) = some (.link target) → rest = [] ∧ follow = false)
    (hthere : rest ≠ [] → (t.get? (name :: here)).isSome) :
    t.walk follow links here (.name name :: rest) = t.walk follow links (name :: here) rest := by
  simp only [walk_eq, walkTo, h, ne_eq, not_true_eq_false, if_false, Nat.not_lt.mpr hshort]
  split
  · next hnone =>
    have hrest : rest = [] := Decidable.of_not_not fun hrest => by
      have := hthere hrest
      simp [hnone] at this
    simp [hrest, walkTo]
  · next target hentry =>
    obtain ⟨rfl, rfl⟩ := hlink target hentry
    simp [walkTo]
  · rfl

/-- A way that goes on needs something there. -/
theorem walk_name_of_none (h : t.get? here = some .directory)
    (hshort : name.utf8ByteSize ≤ nameLimit) (hnone : t.get? (name :: here) = none)
    (hrest : rest ≠ []) : t.walk follow links here (.name name :: rest) = .error .notFound := by
  simp [walk_eq, walkTo, h, Nat.not_lt.mpr hshort, hnone, hrest]

/-! ### Whole ways -/

/-- A way from a place that ends at `out`, with at most `links` links on it. -/
inductive Leads (t : Tree) (follow : Bool) (out : Location) :
    (links : Nat) → (here : Location) → List Step → Prop
  | stop {links : Nat} : Leads t follow out links out []
  | stay {links : Nat} {here : Location} {rest : List Step} (from_ : t.get? here = some .directory)
      (onward : Leads t follow out links here rest) : Leads t follow out links here (.stay :: rest)
  | up {links : Nat} {here : Location} {rest : List Step} (from_ : t.get? here = some .directory)
      (onward : Leads t follow out links here.tail rest) :
      Leads t follow out links here (.up :: rest)
  | link {links : Nat} {here : Location} {name : String} {rest : List Step} {target : Path}
      (from_ : t.get? here = some .directory) (short : name.utf8ByteSize ≤ nameLimit)
      (there : t.get? (name :: here) = some (.link target)) (followed : rest = [] → follow = true)
      (onward : Leads t follow out links (if target.isAbsolute then [] else here)
        (Step.ofPath target ++ rest)) :
      Leads t follow out (links + 1) here (.name name :: rest)
  | name {links : Nat} {here : Location} {name : String} {rest : List Step}
      (from_ : t.get? here = some .directory) (short : name.utf8ByteSize ≤ nameLimit)
      (noLink : ∀ target, t.get? (name :: here) = some (.link target) → rest = [] ∧ follow = false)
      (there : rest ≠ [] → (t.get? (name :: here)).isSome)
      (onward : Leads t follow out links (name :: here) rest) :
      Leads t follow out links here (.name name :: rest)

theorem walk_of_leads (h : Leads t follow out links here steps) :
    t.walk follow links here steps = .ok out := by
  induction h with
  | stop => exact walk_nil
  | stay from_ _ ih => rw [walk_stay from_, ih]
  | up from_ _ ih => rw [walk_up from_, ih]
  | link from_ short there followed _ ih =>
    rw [walk_name_of_link from_ short there followed]
    exact ih
  | name from_ short noLink there _ ih => rw [walk_name from_ short noLink there, ih]

/-- The steps up to the next link, where every way behind a link is known. -/
theorem leads_of_walk_of_beyond
    (hbeyond : ∀ {there steps}, t.beyond follow links there steps = .ok out →
      ∃ left, links = left + 1 ∧ Leads t follow out left there steps)
    (h : t.walk follow links here steps = .ok out) : Leads t follow out links here steps := by
  induction steps generalizing here with
  | nil =>
    obtain rfl : here = out := by simpa using h
    exact .stop
  | cons step rest ih =>
    by_cases hdir : t.get? here = some .directory
    · cases step with
      | stay => exact .stay hdir (ih (walk_stay hdir ▸ h))
      | up => exact .up hdir (ih (walk_up hdir ▸ h))
      | name name =>
        by_cases hshort : name.utf8ByteSize ≤ nameLimit
        · by_cases hlink : ∃ target, t.get? (name :: here) = some (.link target) ∧
            (rest = [] → follow = true)
          · obtain ⟨target, hthere, hfollow⟩ := hlink
            rw [walk_name_of_link hdir hshort hthere hfollow] at h
            obtain ⟨left, rfl, honward⟩ := hbeyond h
            exact .link hdir hshort hthere hfollow honward
          · have hnoLink : ∀ target, t.get? (name :: here) = some (.link target) →
                rest = [] ∧ follow = false := by
              simpa using hlink
            have hthere : rest ≠ [] → (t.get? (name :: here)).isSome := fun hrest => by
              cases hentry : t.get? (name :: here) with
              | none => rw [walk_name_of_none hdir hshort hentry hrest] at h; cases h
              | some entry => rfl
            exact .name hdir hshort hnoLink hthere (ih (walk_name hdir hshort hnoLink hthere ▸ h))
        · rw [walk_name_of_long hdir (Nat.lt_of_not_le hshort)] at h
          cases h
    · rw [walk_cons_of_ne hdir] at h
      cases h

theorem leads_of_walk (h : t.walk follow links here steps = .ok out) :
    Leads t follow out links here steps := by
  induction links generalizing here steps with
  | zero => exact leads_of_walk_of_beyond (fun h => by cases h) h
  | succ links ih => exact leads_of_walk_of_beyond (fun h => ⟨links, rfl, ih h⟩) h

theorem walk_ok_iff : t.walk follow links here steps = .ok out ↔
    Leads t follow out links here steps :=
  ⟨leads_of_walk, walk_of_leads⟩

/-- The way to the last step leads to a directory, whatever follows there. -/
theorem Leads.split (h : Leads t follow out links here steps) {front : List Step} {last : Step}
    (hsteps : steps = front ++ [last]) :
    ∃ directory left, t.get? directory = some .directory ∧
      Leads t follow out left directory [last] ∧
      ∀ {onward : List Step} {end_ : Location}, onward ≠ [] →
        Leads t follow end_ left directory onward →
          Leads t follow end_ links here (front ++ onward) := by
  induction h generalizing front with
  | stop => simp at hsteps
  | @stay links here rest from_ onward ih =>
    cases front with
    | nil =>
      obtain ⟨rfl, rfl⟩ : Step.stay = last ∧ rest = [] := by simpa using hsteps
      exact ⟨here, links, from_, .stay from_ onward, fun _ h => h⟩
    | cons first front =>
      obtain ⟨rfl, rfl⟩ : Step.stay = first ∧ rest = front ++ [last] := by simpa using hsteps
      obtain ⟨directory, left, hdir, hlast, hfront⟩ := ih rfl
      exact ⟨directory, left, hdir, hlast, fun hne h => .stay from_ (hfront hne h)⟩
  | @up links here rest from_ onward ih =>
    cases front with
    | nil =>
      obtain ⟨rfl, rfl⟩ : Step.up = last ∧ rest = [] := by simpa using hsteps
      exact ⟨here, links, from_, .up from_ onward, fun _ h => h⟩
    | cons first front =>
      obtain ⟨rfl, rfl⟩ : Step.up = first ∧ rest = front ++ [last] := by simpa using hsteps
      obtain ⟨directory, left, hdir, hlast, hfront⟩ := ih rfl
      exact ⟨directory, left, hdir, hlast, fun hne h => .up from_ (hfront hne h)⟩
  | @link links here name rest target from_ short there followed onward ih =>
    cases front with
    | nil =>
      obtain ⟨rfl, rfl⟩ : Step.name name = last ∧ rest = [] := by simpa using hsteps
      exact ⟨here, links + 1, from_, .link from_ short there followed onward, fun _ h => h⟩
    | cons first front =>
      obtain ⟨rfl, rfl⟩ : Step.name name = first ∧ rest = front ++ [last] := by
        simpa using hsteps
      obtain ⟨directory, left, hdir, hlast, hfront⟩ := ih (List.append_assoc ..).symm
      refine ⟨directory, left, hdir, hlast, fun hne h => .link from_ short there ?_ ?_⟩
      · simp [hne]
      · exact (List.append_assoc ..) ▸ hfront hne h
  | @name links here name rest from_ short noLink there onward ih =>
    cases front with
    | nil =>
      obtain ⟨rfl, rfl⟩ : Step.name name = last ∧ rest = [] := by simpa using hsteps
      exact ⟨here, links, from_, .name from_ short noLink there onward, fun _ h => h⟩
    | cons first front =>
      obtain ⟨rfl, rfl⟩ : Step.name name = first ∧ rest = front ++ [last] := by
        simpa using hsteps
      obtain ⟨directory, left, hdir, hlast, hfront⟩ := ih rfl
      refine ⟨directory, left, hdir, hlast, fun hne h => .name from_ short ?_ ?_ (hfront hne h)⟩
      · intro target hentry
        simpa using noLink target hentry
      · exact fun _ => there (by simp)

/-- What is behind the last step can be anything that begins at a directory. -/
theorem Leads.directory (h : Leads t follow out links here steps) {front : List Step}
    (hsteps : steps = front ++ [.stay]) :
    t.get? out = some .directory ∧ ∃ left, ∀ {onward : List Step} {end_ : Location},
      onward ≠ [] → Leads t follow end_ left out onward →
        Leads t follow end_ links here (front ++ onward) := by
  obtain ⟨directory, left, hdir, hlast, hfront⟩ := h.split hsteps
  cases hlast with
  | stay _ onward =>
    cases onward
    exact ⟨hdir, left, hfront⟩

/-- Something that no way leads beyond: neither a directory nor a link. -/
def Blocks (t : Tree) (place : Location) : Prop :=
  t.get? place ≠ some .directory ∧ ∀ target, t.get? place ≠ some (.link target)

theorem blocks_of_none (h : t.get? place = none) : t.Blocks place := by
  simp [Blocks, h]

theorem blocks_of_file {content : ByteArray} {executable : Bool}
    (h : t.get? place = some (.file content executable)) : t.Blocks place := by
  simp [Blocks, h]

/-- The root is a directory. -/
theorem Blocks.ne_nil (h : t.Blocks place) : place ≠ [] := by
  rintro rfl
  exact h.1 get?_nil

/-- A way that comes to such a place ends there. -/
theorem Leads.stops (hblocks : t.Blocks here) (h : Leads t follow out links here steps) :
    out = here ∧ steps = [] := by
  cases h with
  | stop => exact ⟨rfl, rfl⟩
  | stay from_ | up from_ | link from_ | name from_ => exact absurd from_ hblocks.1

/-- Two trees have the same directories and the same links, but for one place. -/
def SameWays (t t' : Tree) (place : Location) : Prop :=
  ∀ p ≠ place, t.get? p = t'.get? p ∨ t.Blocks p ∧ t'.Blocks p

/-- A way that does not end at the one place where another tree blocks it is a way through
that tree, too; and so is one that does, if the place is blocked in both. -/
theorem Leads.of_sameWays {place : Location} (hsame : t.SameWays t' place)
    (hplace : t'.Blocks place) (h : Leads t' follow out links here steps) :
    out = place ∧ ¬ t.Blocks place ∨ Leads t follow out links here steps := by
  have hdir {p : Location} (hp : t'.get? p = some .directory) : t.get? p = some .directory := by
    by_cases hne : p = place
    · exact absurd (hne ▸ hp) hplace.1
    · rcases hsame p hne with heq | ⟨-, hblocks⟩
      · rw [heq, hp]
      · exact absurd hp hblocks.1
  have hlink {p : Location} {target : Path} (hp : t'.get? p = some (.link target)) :
      t.get? p = some (.link target) := by
    by_cases hne : p = place
    · exact absurd (hne ▸ hp) (hplace.2 target)
    · rcases hsame p hne with heq | ⟨-, hblocks⟩
      · rw [heq, hp]
      · exact absurd hp (hblocks.2 target)
  -- where both trees block the way, it ends in both
  have hend {links : Nat} {here : Location} {name : String} {rest : List Step}
      (from_ : t'.get? here = some .directory) (short : name.utf8ByteSize ≤ nameLimit)
      (onward : Leads t' follow out links (name :: here) rest)
      (hblocks : t.Blocks (name :: here)) (hblocks' : t'.Blocks (name :: here)) :
      Leads t follow out links here (.name name :: rest) := by
    obtain ⟨rfl, rfl⟩ := onward.stops hblocks'
    refine .name (hdir from_) short ?_ (fun hrest => absurd rfl hrest) .stop
    exact fun target hentry => absurd hentry (hblocks.2 target)
  induction h with
  | stop => exact .inr .stop
  | stay from_ _ ih => exact ih.imp_right (.stay (hdir from_))
  | up from_ _ ih => exact ih.imp_right (.up (hdir from_))
  | link from_ short there followed _ ih =>
    exact ih.imp_right (.link (hdir from_) short (hlink there) followed)
  | @name links here name rest from_ short noLink there onward ih =>
    by_cases hne : name :: here = place
    · have hblocks' : t'.Blocks (name :: here) := hne ▸ hplace
      by_cases hblocks : t.Blocks (name :: here)
      · exact .inr (hend from_ short onward hblocks hblocks')
      · exact .inl ⟨(onward.stops hblocks').1.trans hne, hne ▸ hblocks⟩
    · rcases hsame _ hne with heq | ⟨hblocks, hblocks'⟩
      · exact ih.imp_right (.name (hdir from_) short (heq ▸ noLink) (heq ▸ there))
      · exact .inr (hend from_ short onward hblocks hblocks')

end SongPreview.Tree
