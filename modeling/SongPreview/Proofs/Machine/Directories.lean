import SongPreview.Proofs.Machine.Places
import Mathlib.Data.List.Basic
import Mathlib.Data.List.TakeWhile

/-!
# Making directories

A path names a place if its last step is a name and the way up to it leads to a directory. However
far it gets, making directories makes nothing but directories, each where one of the paths leads,
and nothing that was there is lost: every way leads on as it did.
-/

namespace SongPreview

namespace Path

theorem splitSlash_ne_nil (text : List Char) : splitSlash text ≠ [] := by
  cases text with
  | nil => simp [splitSlash]
  | cons c text =>
    rw [splitSlash]
    split
    · simp
    · split <;> simp

/-- A slash is the end of a piece. -/
theorem splitSlash_append_slash (front back : List Char) :
    splitSlash (front ++ '/' :: back) = splitSlash front ++ splitSlash back := by
  induction front with
  | nil => simp [splitSlash]
  | cons c front ih =>
    by_cases hc : c = '/'
    · simp [splitSlash, hc, ih]
    · obtain ⟨piece, rest, hsplit⟩ := List.exists_cons_of_ne_nil (splitSlash_ne_nil front)
      simp [splitSlash, hc, ih, hsplit]

end Path

namespace Tree

variable {t t' : Tree} {place q workDir directory : Location} {entry : Entry} {p : Path}
  {name : String}

/-! ### What stands at a place after a change -/

/-- Taking away what stands at one place leaves every other place as it is. -/
theorem lookup_filter (place q : Location) (entries : List (Location × Entry)) :
    (entries.filter fun e => e.1 ≠ place).lookup q =
      if q = place then none else entries.lookup q := by
  induction entries with
  | nil => simp
  | cons e entries ih =>
    obtain ⟨there, entry⟩ := e
    by_cases hthere : there = place
    · subst hthere
      rw [List.filter_cons_of_neg (by simp), ih]
      by_cases hq : q = there
      · simp [hq]
      · have hne : (q == there) = false := beq_eq_false_iff_ne.mpr hq
        simp [hq, List.lookup_cons, hne]
    · rw [List.filter_cons_of_pos (by simpa using hthere)]
      by_cases hq : q = there
      · subst hq
        simp [hthere]
      · have hne : (q == there) = false := beq_eq_false_iff_ne.mpr hq
        simp only [List.lookup_cons, hne, ih]

theorem get?_put_self (h : place ≠ []) : (t.put place entry).get? place = some entry := by
  simp [get?, put, h]

/-- The root is a directory: whatever stands elsewhere can be put there. -/
theorem get?_put_of_not_directory (h : t.get? place ≠ some .directory) :
    (t.put place entry).get? place = some entry := by
  apply get?_put_self
  rintro rfl
  exact h rfl

theorem get?_put_of_ne (h : q ≠ place) : (t.put place entry).get? q = t.get? q := by
  have hne : (q == place) = false := by simpa using h
  simp only [get?, put, List.lookup_cons, hne, lookup_filter, if_neg h]

/-- Of two things that are put at one place, the second stays. -/
theorem put_put (t : Tree) (place : Location) (first second : Entry) :
    (t.put place first).put place second = t.put place second := by
  simp [put, List.filter_filter]

theorem get?_erase_of_ne (h : q ≠ place) : (t.erase place).get? q = t.get? q := by
  simp only [get?, erase, lookup_filter, if_neg h]

theorem get?_erase_self (h : place ≠ []) : (t.erase place).get? place = none := by
  simp only [get?, erase, lookup_filter, if_neg h, if_true]

/-- Putting something at a place changes the ways at this place only. -/
theorem sameWays_put : t.SameWays (t.put place entry) place :=
  fun _ hne => .inl (get?_put_of_ne hne).symm

theorem sameWays_erase : t.SameWays (t.erase place) place :=
  fun _ hne => .inl (get?_erase_of_ne hne).symm

theorem SameWays.symm (h : t.SameWays t' place) : t'.SameWays t place :=
  fun q hne => (h q hne).imp Eq.symm And.symm

/-- What a place holds, apart from directories. -/
def held? (t : Tree) (place : Location) : Option Entry :=
  (t.get? place).filter (· ≠ .directory)

theorem held?_of_get? (h : t.get? place = some entry) (hentry : entry ≠ .directory) :
    t.held? place = some entry := by
  simp [held?, h, hentry]

theorem get?_of_held? (h : t.held? place = some entry) : t.get? place = some entry :=
  (Option.filter_eq_some_iff.mp h).1

theorem held?_put_of_ne (h : q ≠ place) : (t.put place entry).held? q = t.held? q := by
  rw [held?, held?, get?_put_of_ne h]

/-! ### The last step of a path -/

/-- Slashes at the end are steps that stay. -/
theorem Step.ofPath_slashes (bare : List Char) (k : Nat) :
    Step.ofPath ⟨String.ofList (bare ++ List.replicate k '/')⟩ =
      Step.ofPath ⟨String.ofList bare⟩ ++ List.replicate k .stay := by
  induction k with
  | zero => simp
  | succ k ih =>
    simp only [Step.ofPath, String.toList_ofList] at ih ⊢
    rw [List.replicate_succ', ← List.append_assoc, Path.splitSlash_append_slash, List.map_append,
      ih, List.replicate_succ', List.append_assoc]
    rfl

/-- A text is what is left without the slashes at its end, and these slashes. -/
theorem exists_bare (text : List Char) :
    ∃ k, text = (text.reverse.dropWhile (· = '/')).reverse ++ List.replicate k '/' := by
  refine ⟨(text.reverse.takeWhile (· = '/')).length, ?_⟩
  have hslashes : text.reverse.takeWhile (· = '/') =
      List.replicate (text.reverse.takeWhile (· = '/')).length '/' := by
    refine List.eq_replicate_of_mem fun c hc => ?_
    simpa using List.mem_takeWhile_imp hc
  have hsplit := List.takeWhile_append_dropWhile (p := (· = '/')) (l := text.reverse)
  rw [← List.reverse_replicate, ← hslashes, ← List.reverse_append, hsplit, List.reverse_reverse]

/-- A path whose last step is a name, and how many slashes follow it. -/
theorem lastStep_ok {last : LastStep} (h : t.lastStep workDir p = .ok last)
    (hstep : last.step = .name name) :
    check p = .ok () ∧ ∃ front k,
      Step.ofPath p = front ++ .name name :: List.replicate k .stay ∧
      (last.slash = false ↔ k = 0) ∧
      Leads t true last.directory linkLimit (start workDir p) (front ++ [.stay]) := by
  obtain ⟨_, hcheck, h⟩ := bind_eq_ok.mp h
  obtain ⟨directory, hway, h⟩ := bind_eq_ok.mp h
  obtain rfl := Except.ok.inj h
  obtain ⟨k, htext⟩ := exists_bare p.text.toList
  generalize (p.text.toList.reverse.dropWhile (· = '/')).reverse = bare at hway hstep htext ⊢
  have hsteps : Step.ofPath p = Step.ofPath ⟨String.ofList bare⟩ ++ List.replicate k .stay := by
    rw [← Step.ofPath_slashes, ← htext, String.ofList_toList]
  have hlast : (Step.ofPath ⟨String.ofList bare⟩).getLast? = some (.name name) := by
    cases hget : (Step.ofPath ⟨String.ofList bare⟩).getLast? with
    | none => simp [hget] at hstep
    | some step => simpa [hget] using hstep
  have hfront := List.dropLast_append_getLast? _ hlast
  refine ⟨hcheck, _, k, ?_, ?_, leads_of_walk hway⟩
  · rw [hsteps, ← hfront]
    simp
  · have hlength := congrArg List.length htext
    simp only [List.length_append, List.length_replicate, String.length_toList] at hlength
    simp only [decide_eq_false_iff_not]
    omega

/-- A step that follows no link ends at its name. -/
theorem eq_of_walk_last {links : Nat} {here : Location}
    (h : t.walk false links here [.name name] = .ok place) :
    place = name :: here ∧ name.utf8ByteSize ≤ nameLimit := by
  cases leads_of_walk h with
  | link _ _ _ followed => simp at followed
  | name _ short _ _ onward =>
    cases onward
    exact ⟨rfl, short⟩

/-- Steps that stay lead nowhere else. -/
theorem leads_stay {follow : Bool} {links : Nat} {here : Location}
    (h : t.get? here = some .directory) (k : Nat) :
    Leads t follow here links here (List.replicate k .stay) := by
  induction k with
  | zero => exact .stop
  | succ k ih => exact .stay h ih

/-- The step of a path behind which no slash follows is its last one. -/
theorem lastStep_of_leads {front : List Step} (hcheck : check p = .ok ())
    (hsteps : Step.ofPath p = front ++ [.name name])
    (hway : Leads t true directory linkLimit (start workDir p) (front ++ [.stay])) :
    t.lastStep workDir p = .ok ⟨directory, .name name, false⟩ := by
  obtain ⟨k, htext⟩ := exists_bare p.text.toList
  have hbare : (p.text.toList.reverse.dropWhile (· = '/')).reverse = p.text.toList := by
    have hsplit := Step.ofPath_slashes (p.text.toList.reverse.dropWhile (· = '/')).reverse k
    rw [← htext, String.ofList_toList, hsteps] at hsplit
    cases k with
    | zero => simpa using htext.symm
    | succ k =>
      -- behind a slash the last step would stay
      have hlast := congrArg List.getLast? hsplit
      rw [List.replicate_succ', ← List.append_assoc] at hlast
      simp at hlast
  refine bind_eq_ok.mpr ⟨(), hcheck, ?_⟩
  simp only [hbare, String.ofList_toList, hsteps, List.dropLast_concat, List.getLast?_concat]
  rw [walk_of_leads hway]
  simp [bind, Except.bind, pure, Except.pure, String.length_toList]

/-- A path names a place: the last step is its name, and the way up to it leads to its
directory. Something may stand there or not. -/
inductive Names (t : Tree) (workDir : Location) (p : Path) : Location → Prop
  | intro {front : List Step} {name : String} {directory : Location} (checked : check p = .ok ())
      (steps : Step.ofPath p = front ++ [.name name]) (short : name.utf8ByteSize ≤ nameLimit)
      (way : Leads t true directory linkLimit (start workDir p) (front ++ [.stay])) :
      Names t workDir p (name :: directory)

/-- A path that names a place leads there, if nothing at the place leads elsewhere. -/
theorem Names.locate (h : Names t workDir p place)
    (hlink : ∀ target, t.get? place ≠ some (.link target)) : t.locate workDir p = .ok place := by
  obtain ⟨hcheck, hsteps, hshort, hway⟩ := h
  obtain ⟨hdir, left, hfront⟩ := hway.directory rfl
  refine locate_ok_iff.mpr ⟨hcheck, hsteps ▸ hfront (List.cons_ne_nil _ _) ?_⟩
  exact .name hdir hshort (fun target there => absurd there (hlink target)) (absurd rfl) .stop

/-- A path names one place at most. -/
theorem Names.unique (h : Names t workDir p place) (h' : Names t workDir p q) : place = q := by
  obtain ⟨-, hsteps, -, hway⟩ := h
  obtain ⟨-, hsteps', -, hway'⟩ := h'
  obtain ⟨rfl, hname⟩ := List.append_inj' (hsteps.symm.trans hsteps') rfl
  obtain ⟨rfl⟩ := Step.name.inj (List.cons.inj hname).1
  rw [Except.ok.inj ((walk_of_leads hway).symm.trans (walk_of_leads hway'))]

/-! ### Ways through a tree that grew -/

/-- A tree with everything that another one has, and with no new links. -/
structure Extends (t t' : Tree) : Prop where
  kept {place : Location} {entry : Entry} :
    t.get? place = some entry → t'.get? place = some entry
  noLink {place : Location} : t.get? place = none → ∀ target, t'.get? place ≠ some (.link target)

theorem Leads.of_extends {follow : Bool} {out here : Location} {links : Nat} {steps : List Step}
    (hextends : t.Extends t') (h : Leads t follow out links here steps) :
    Leads t' follow out links here steps := by
  induction h with
  | stop => exact .stop
  | stay from_ _ ih => exact .stay (hextends.kept from_) ih
  | up from_ _ ih => exact .up (hextends.kept from_) ih
  | link from_ short there followed _ ih =>
    exact .link (hextends.kept from_) short (hextends.kept there) followed ih
  | @name links here name rest from_ short noLink there _ ih =>
    refine .name (hextends.kept from_) short ?_ ?_ ih
    · intro target hentry
      cases hold : t.get? (name :: here) with
      | none => exact absurd hentry (hextends.noLink hold target)
      | some entry =>
        have hkept := hextends.kept hold
        rw [hkept] at hentry
        exact noLink target (hold.trans hentry)
    · intro hrest
      obtain ⟨entry, hold⟩ := Option.isSome_iff_exists.mp (there hrest)
      rw [hextends.kept hold]
      rfl

theorem extends_put_directory (hnone : t.get? place = none) :
    t.Extends (t.put place .directory) where
  kept {q entry} hentry := by
    have hne : q ≠ place := by
      rintro rfl
      rw [hnone] at hentry
      cases hentry
    rw [get?_put_of_ne hne, hentry]
  noLink {q} hq target := by
    by_cases hne : q = place
    · subst hne
      rw [get?_put_self (blocks_of_none hnone).ne_nil]
      nofun
    · rw [get?_put_of_ne hne, hq]
      nofun

end Tree

namespace Machine

variable {m m' m'' : Machine} {dirs : List Path} {place : Location} {entry : Entry} {p q : Path}

/-- The place that a path names: what is moved to the path goes there. -/
def named? (m : Machine) (p : Path) : Option Location :=
  match m.tree.lastStep m.workDir p with
  | .ok ⟨directory, .name name, false⟩ =>
    if name.utf8ByteSize ≤ Tree.nameLimit then some (name :: directory) else none
  | _ => none

theorem named?_eq_some_iff : m.named? p = some place ↔ m.tree.Names m.workDir p place := by
  rw [named?]
  constructor
  · intro h
    split at h
    · next directory name hlast =>
      obtain ⟨hcheck, front, k, hsteps, hslash, hway⟩ := Tree.lastStep_ok hlast rfl
      obtain rfl : k = 0 := hslash.mp rfl
      split at h
      · next hshort =>
        obtain rfl := Option.some.inj h
        exact .intro hcheck hsteps hshort hway
      · cases h
    · cases h
  · rintro ⟨hcheck, hsteps, hshort, hway⟩
    rw [Tree.lastStep_of_leads hcheck hsteps hway]
    simp [hshort]

/-! ### What making directories does -/

/-- Directories were made, each of them one that a path of a list leads to. Everything that was
there stays. -/
structure MadeAmong (dirs : List Path) (m m' : Machine) : Prop where
  withTree : m' = m.withTree m'.tree
  kept : ∀ place entry, m.tree.get? place = some entry → m'.tree.get? place = some entry
  made : ∀ place entry, m.tree.get? place = none → m'.tree.get? place = some entry →
    entry = .directory ∧ ∃ dir ∈ dirs, m'.find dir = .ok (place, .directory)

namespace MadeAmong

theorem refl (dirs : List Path) (m : Machine) : MadeAmong dirs m m where
  withTree := rfl
  kept _ _ h := h
  made place entry hnone h := by
    rw [hnone] at h
    cases h

variable (h : MadeAmong dirs m m')
include h

theorem workDir : m'.workDir = m.workDir := by
  rw [h.withTree]
  rfl

theorem tree_extends : m.tree.Extends m'.tree where
  kept := h.kept _ _
  noLink hnone target hlink := by
    obtain ⟨hdir, -⟩ := h.made _ _ hnone hlink
    cases hdir

/-- What a path led to, it leads to still. -/
theorem find (hfound : m.find p = .ok (place, entry)) : m'.find p = .ok (place, entry) := by
  obtain ⟨hlocate, hentry⟩ := find_ok_iff.mp hfound
  obtain ⟨hcheck, hway⟩ := Tree.locate_ok_iff.mp hlocate
  refine find_ok_iff.mpr ⟨Tree.locate_ok_iff.mpr ⟨hcheck, ?_⟩, h.kept _ _ hentry⟩
  rw [h.workDir]
  exact hway.of_extends h.tree_extends

theorem held (place : Location) : m'.tree.held? place = m.tree.held? place := by
  rw [Tree.held?, Tree.held?]
  cases hold : m.tree.get? place with
  | some entry => rw [h.kept _ _ hold]
  | none =>
    cases hnew : m'.tree.get? place with
    | none => rfl
    | some entry =>
      obtain ⟨rfl, -⟩ := h.made _ _ hold hnew
      rfl

theorem mono {dirs' : List Path} (hdirs : dirs ⊆ dirs') : MadeAmong dirs' m m' where
  withTree := h.withTree
  kept := h.kept
  made place entry hnone hentry := by
    obtain ⟨hdir, dir, hmem, hfind⟩ := h.made place entry hnone hentry
    exact ⟨hdir, dir, hdirs hmem, hfind⟩

theorem trans (h' : MadeAmong dirs m' m'') : MadeAmong dirs m m'' where
  withTree := by rw [h'.withTree, h.withTree]; rfl
  kept place entry hentry := h'.kept _ _ (h.kept _ _ hentry)
  made place entry hnone hentry := by
    cases hmid : m'.tree.get? place with
    | none => exact h'.made _ _ hmid hentry
    | some entry' =>
      obtain ⟨rfl, dir, hmem, hfind⟩ := h.made _ _ hnone hmid
      have hkept := h'.kept _ _ hmid
      exact ⟨Option.some.inj (hentry.symm.trans hkept), dir, hmem, h'.find hfind⟩

end MadeAmong

/-- A directory is made where nothing was, and its path leads to it. -/
theorem madeAmong_makeDir (h : m.makeDir p = .ok m') : MadeAmong [p] m m' := by
  obtain ⟨last, hlast, h⟩ := bind_eq_ok.mp h
  cases hstep : last.step with
  | stay => rw [hstep] at h; exact absurd h throw_ne_ok
  | up => rw [hstep] at h; exact absurd h throw_ne_ok
  | name name =>
    rw [hstep] at h
    obtain ⟨place, hplace, h⟩ := bind_eq_ok.mp h
    split at h
    · next hnone =>
      obtain ⟨_, -, h⟩ := bind_eq_ok.mp h
      obtain rfl := Except.ok.inj h
      obtain ⟨hcheck, front, k, hsteps, -, hway⟩ := Tree.lastStep_ok hlast hstep
      obtain ⟨rfl, hshort⟩ := Tree.eq_of_walk_last hplace
      have hthere : (m.tree.put (name :: last.directory) .directory).get?
          (name :: last.directory) = some .directory := Tree.get?_put_self (List.cons_ne_nil _ _)
      obtain ⟨hdir, left, hfront⟩ :=
        (hway.of_extends (Tree.extends_put_directory hnone)).directory rfl
      have hfind : (m.withTree (m.tree.put (name :: last.directory) .directory)).find p =
          .ok (name :: last.directory, .directory) := by
        refine find_ok_iff.mpr ⟨Tree.locate_ok_iff.mpr ⟨hcheck, ?_⟩, hthere⟩
        refine hsteps ▸ hfront (List.cons_ne_nil _ _) (.name hdir hshort ?_ ?_ ?_)
        · simp [hthere]
        · simp [hthere]
        · exact Tree.leads_stay hthere k
      refine ⟨rfl, fun q entry => (Tree.extends_put_directory hnone).kept, ?_⟩
      intro q entry hold hnew
      have hq : q = name :: last.directory := by
        by_contra hne
        rw [withTree, Tree.get?_put_of_ne hne, hold] at hnew
        cases hnew
      subst hq
      exact ⟨(Option.some.inj (hthere.symm.trans hnew)).symm, p, List.mem_singleton_self p, hfind⟩
    · exact absurd h throw_ne_ok

end Machine

namespace Action

open Machine in
/-- However far it gets, making directories makes nothing but directories of the list. -/
theorem madeAmong_makeNested (dirs : List Path) (m : Machine) :
    MadeAmong dirs m (makeNested dirs m).2 := by
  induction dirs generalizing m with
  | nil => exact .refl [] m
  | cons p parents ih =>
    have hone {m m' : Machine} (h : m.makeDir p = .ok m') : MadeAmong (p :: parents) m m' :=
      (madeAmong_makeDir h).mono (by simp)
    have hparents : MadeAmong (p :: parents) m (makeNested parents m).2 :=
      (ih m).mono (List.subset_cons_self _ _)
    rw [makeNested]
    by_cases htext : p.text = ""
    · simp only [if_pos htext]
      exact .refl _ m
    · simp only [if_neg htext]
      split
      · next after hmade => exact hone hmade
      · -- what holds the directory is made first
        split
        · next fault after hfailed => rwa [hfailed] at hparents
        · next after hdone =>
          rw [hdone] at hparents
          split
          · next last hmade => exact hparents.trans (hone hmade)
          · exact hparents
      · exact .refl _ m

end Action

end SongPreview
