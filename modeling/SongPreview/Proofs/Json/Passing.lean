import SongPreview.Json.Record
import SongPreview.Proofs.Json.Tokens

/-!
# Passing over values

The reader that passes over a value keeps a list of the lists and objects that are open,
and goes on until none is. It passes over every value of the grammar, of any depth: a
value within others leaves the reader behind itself with the same ones open.
-/

namespace SongPreview.Json

namespace Reader

variable {n bound : Nat} {comma : Bool} {frame : Frame} {outside opened : List Frame}
  {b v s rest : List Char} {c : Char}

/-- Goes on inside of a list or object, behind its bracket or behind a part of it. -/
def passOn (bound : Nat) (comma : Bool) (frame : Frame) (outside : List Frame) : Reader Unit := do
  let opened ← passEnd comma frame outside
  match opened with
  | [] => pure ()
  | frame :: outside => passKey frame; passOpen bound (frame :: outside)

/-- Goes on behind a value. -/
def passBehind (bound : Nat) : List Frame → Reader Unit
  | [] => pure ()
  | frame :: outside => passOn bound true frame outside

/-- A value is read whole or up to the bracket in front of its parts. -/
theorem passOpen_succ (bound : Nat) (opened : List Frame) :
    passOpen (bound + 1) opened = passStart >>= fun start =>
      match start with
      | none => passBehind bound opened
      | some frame => passOn bound false frame opened := by
  rw [passOpen]
  congr 1
  funext start
  cases start <;> cases opened <;> rfl

theorem skips_passOpen (bound : Nat) (opened : List Frame) : Skips (passOpen (bound + 1) opened) :=
  ((skips_next _).bind _).bind _

/-! ## Behind a value -/

theorem skips_passEnd (comma : Bool) (frame : Frame) (outside : List Frame) :
    Skips (passEnd comma frame outside : Reader (List Frame)) := by
  intro b s hb
  induction b with
  | nil => rfl
  | cons c b ih =>
    have hc : isBlank c = true := isBlank_iff.mpr (hb c (by simp))
    have hskip : passEnd comma frame outside (c :: (b ++ s)) =
        passEnd comma frame outside (b ++ s) := by simp [passEnd, hc]
    exact hskip.trans (ih fun c hc => hb c (List.mem_cons_of_mem _ hc))

theorem skips_passOn (bound : Nat) (comma : Bool) (frame : Frame) (outside : List Frame) :
    Skips (passOn bound comma frame outside) :=
  (skips_passEnd comma frame outside).bind _

theorem closer_mem (frame : Frame) : frame.closer ∈ [']', '\x7d'] := by cases frame <;> decide

theorem closer_apart (frame : Frame) : isBlank frame.closer = false ∧ frame.closer ≠ ',' := by
  cases frame <;> decide

/-- Behind a closing bracket the reader goes on outside of it. -/
theorem passOn_close (hb : Blanks b) :
    passOn bound comma frame outside (b ++ frame.closer :: rest) =
      passBehind bound outside rest := by
  obtain ⟨hblank, hcomma⟩ := closer_apart frame
  rw [skips_passOn _ _ _ _ _ _ hb]
  cases outside with
  | nil =>
    refine bind_of_ok (?_ : passEnd comma frame [] _ = .ok ([], rest)) _
    simp [passEnd, hblank, hcomma]
  | cons outer outside =>
    have hend : passEnd comma frame (outer :: outside) (frame.closer :: rest) =
        passEnd true outer outside rest := by
      simp [passEnd, hblank, hcomma]
    simp only [passOn, passBehind, bind, StateT.bind, hend]

/-! ## In front of a value -/

/-- What stands in front of a value inside of a list or object. -/
def Labels : Frame → List Char → Prop
  | .list, label => label = []
  | .object, label => Key IsQuoted label

/-- The name of a member is passed over, up to blanks in front of the value. -/
theorem passKey_append {label : List Char} (h : Labels frame label) (hb : Blanks b) :
    ∃ b', Blanks b' ∧ ∀ s, passKey frame (b ++ (label ++ s)) = .ok ((), b' ++ s) := by
  cases frame with
  | list =>
    obtain rfl : label = [] := h
    exact ⟨b, hb, fun s => rfl⟩
  | object =>
    obtain ⟨name, b₁, b₂, hname, hb₁, hb₂, rfl⟩ := h
    obtain ⟨inner, rfl, hinner⟩ := hname.pass
    refine ⟨b₂, hb₂, fun s => ?_⟩
    have htext : (passCharacters : Reader Unit) (inner ++ (b₁ ++ ':' :: (b₂ ++ s))) =
        .ok ((), b₁ ++ ':' :: (b₂ ++ s)) := hinner _
    simp only [passKey, List.cons_append, List.append_assoc]
    rw [bind_of_ok (next_blanks hb (by decide) _), if_pos rfl, bind_of_ok (advance_cons _ _),
      bind_of_ok htext, colon_blanks hb₁]

/-- The first character of a value or of the name of a member. -/
def Begins (v : List Char) : Prop :=
  ∃ c s, v = c :: s ∧ isBlank c = false ∧ c ∉ [']', '\x7d']

theorem Begins.ne_nil (h : Begins v) : v ≠ [] := by
  obtain ⟨c, t, rfl, -⟩ := h
  exact List.cons_ne_nil c t

theorem Begins.append (h : Begins v) (s : List Char) : Begins (v ++ s) := by
  obtain ⟨c, t, rfl, hc⟩ := h
  exact ⟨c, t ++ s, rfl, hc⟩

end Reader

open Reader

theorem begins_digit {c : Char} (h : c.isDigit) (s : List Char) : Begins (c :: s) := by
  have hother : ∀ d ∈ [' ', '\t', '\n', '\r', ']', '\x7d'], d.isDigit = false := by simp
  refine ⟨c, s, rfl, ?_, fun hclose => ?_⟩
  · by_contra hblank
    have hmem := isBlank_iff.mp (by simpa using hblank)
    exact absurd h (by simp [hother c (List.mem_append_left [']', '\x7d'] hmem)])
  · exact absurd h (by simp [hother c (List.mem_append_right [' ', '\t', '\n', '\r'] hclose)])

theorem Key.begins {Name : List Char → Prop} {key : List Char} (h : Key Name key)
    (hname : ∀ {name}, Name name → Begins name) : Begins key := by
  obtain ⟨name, b, b', h, -, -, rfl⟩ := h
  exact (hname h).append _

theorem IsNumber.begins {s : List Char} (h : IsNumber s) : Begins s := by
  obtain ⟨sign, whole, fraction, exponent, hsign, ⟨⟨hne, hds⟩, -⟩, -, -, rfl⟩ := h
  obtain ⟨d, ds, rfl⟩ := List.exists_cons_of_ne_nil hne
  obtain rfl | rfl : sign = [] ∨ sign = ['-'] := by simpa using hsign
  · exact begins_digit (hds d (by simp)) _
  · exact ⟨'-', _, rfl, by decide, by decide⟩

theorem IsQuoted.begins {s : List Char} (h : IsQuoted s) : Begins s := by
  obtain ⟨glyphs, -, rfl⟩ := h
  exact ⟨'"', _, rfl, by decide, by decide⟩

/-- No value begins with what could end a list or an object. -/
theorem IsValue.begins {s : List Char} (h : IsValue s) : Begins s := by
  cases h with
  | word h =>
    simp only [List.mem_cons, List.not_mem_nil, or_false] at h
    rcases h with rfl | rfl | rfl <;> exact ⟨_, _, rfl, by decide, by decide⟩
  | number h => exact h.begins
  | text h => exact h.begins
  | list _ h =>
    obtain ⟨inner, -, rfl⟩ := h
    exact ⟨'[', _, rfl, by decide, by decide⟩
  | object _ _ h =>
    obtain ⟨inner, -, rfl⟩ := h
    exact ⟨'\x7b', _, rfl, by decide, by decide⟩

namespace Reader

variable {n bound : Nat} {comma : Bool} {frame : Frame} {outside opened : List Frame}
  {b v s rest : List Char} {c : Char}

/-! ## Values -/

/-- The reader passes over a value, and has at least as many rounds left as there are
characters left. -/
def Passes (v : List Char) : Prop :=
  ∀ (n : Nat) (opened : List Frame) (rest : List Char), v.length ≤ n → Apart rest →
    ∃ left, n ≤ left + v.length ∧ passOpen n opened (v ++ rest) = passBehind left opened rest

/-- A value without parts is read at once. -/
theorem passes_of_start (hv : v ≠ [])
    (h : ∀ {rest}, Apart rest → passStart (v ++ rest) = .ok (none, rest)) : Passes v := by
  intro n opened rest hn hrest
  have hpos := List.length_pos_of_ne_nil hv
  obtain ⟨left, rfl⟩ : ∃ left, n = left + 1 := ⟨n - 1, by omega⟩
  exact ⟨left, by omega, by rw [passOpen_succ, bind_of_ok (h hrest)]⟩

theorem passStart_word
    (h : v ∈ [['n', 'u', 'l', 'l'], ['t', 'r', 'u', 'e'], ['f', 'a', 'l', 's', 'e']])
    (rest : List Char) : passStart (v ++ rest) = .ok (none, rest) := by
  simp only [List.mem_cons, List.not_mem_nil, or_false] at h
  rcases h with rfl | rfl | rfl
  all_goals
    rw [passStart, List.cons_append, bind_of_ok (next_cons (by decide) _)]
    exact (bind_of_ok (advance_cons _ _) _).trans (bind_of_ok (word_append _ _) _)

theorem passStart_digit (hc : c.isDigit) (s : List Char) :
    passStart (c :: s) = (do let _ ← numeral false; return none) (c :: s) := by
  obtain ⟨_, _, hcons, hblank, -⟩ := begins_digit hc s
  obtain ⟨rfl, rfl⟩ := List.cons.inj hcons
  rw [passStart, bind_of_ok (next_cons hblank s)]
  split <;> simp_all

theorem passStart_number (h : IsNumber v) (hrest : Apart rest) :
    passStart (v ++ rest) = .ok (none, rest) := by
  obtain ⟨sign, whole, fraction, exponent, hsign, hwhole, hfraction, hexponent, rfl⟩ := h
  obtain ⟨n, hn⟩ := numeral_append hwhole hfraction hexponent hrest false
  obtain rfl | rfl : sign = [] ∨ sign = ['-'] := by simpa using hsign
  · obtain ⟨d, ds, rfl⟩ := List.exists_cons_of_ne_nil hwhole.1.1
    simp only [List.nil_append, List.append_assoc, List.cons_append] at hn ⊢
    rw [passStart_digit (hwhole.1.2 d (by simp)), bind_of_ok hn]
    rfl
  · simp only [List.append_assoc, List.cons_append, List.nil_append]
    rw [passStart, bind_of_ok (next_cons (by decide) _)]
    exact (bind_of_ok (advance_cons _ _) _).trans (bind_of_ok hn _)

theorem passStart_text (h : IsQuoted v) (rest : List Char) :
    passStart (v ++ rest) = .ok (none, rest) := by
  obtain ⟨inner, rfl, hinner⟩ := h.pass
  have htext : (passCharacters : Reader Unit) (inner ++ rest) = .ok ((), rest) := hinner rest
  rw [passStart, List.cons_append, bind_of_ok (next_cons (by decide) _)]
  exact (bind_of_ok (advance_cons _ _) _).trans (bind_of_ok htext _)

/-! ## Values within values -/

/-- What stands behind an item does not go on with it. -/
theorem apart_listed {items : List (List Char)} {more : List Char} (h : Listed false items more)
    (frame : Frame) (rest : List Char) : Apart (more ++ frame.closer :: rest) := by
  cases h with
  | nil hb => exact apart_blanks hb (List.mem_cons_of_mem _ (closer_mem frame)) rest
  | cons hlead _ =>
    cases hlead with
    | next hb _ =>
      rw [List.append_assoc, List.append_assoc]
      exact apart_blanks hb (by decide) _

/-- Behind a bracket, or behind a value and a comma, the next item begins. -/
theorem passOn_lead {first : Bool} {lead item : List Char} (h : Lead first lead)
    (hitem : Begins item) :
    ∃ b, Blanks b ∧ passOn bound (!first) frame outside (lead ++ (item ++ s)) =
      (passKey frame >>= fun _ => passOpen bound (frame :: outside)) (b ++ (item ++ s)) := by
  obtain ⟨c, t, rfl, hc, hclose⟩ := hitem
  cases h with
  | first hb =>
    refine ⟨[], blanks_nil, ?_⟩
    rw [skips_passOn _ _ _ _ _ _ hb]
    refine bind_of_ok (?_ : passEnd false frame outside _ = .ok (frame :: outside, c :: t ++ s)) _
    have hcloser : c ≠ frame.closer := fun h => hclose (h ▸ closer_mem frame)
    simp [passEnd, hc, hcloser]
  | @next b b' hb hb' =>
    refine ⟨b', hb', ?_⟩
    rw [List.append_assoc, skips_passOn _ _ _ _ _ _ hb]
    exact bind_of_ok (show passEnd true frame outside (',' :: b' ++ (c :: t ++ s)) =
      .ok (frame :: outside, b' ++ (c :: t ++ s)) from rfl) _

/-- The reader passes over an item, and goes on inside of the same list or object. -/
theorem passItem {label : List Char} (hlabel : Labels frame label) (hvalue : Passes v)
    (hv : Begins v) (hb : Blanks b) (hn : v.length ≤ n) (hrest : Apart rest)
    (outside : List Frame) :
    ∃ left, n ≤ left + v.length ∧
      (passKey frame >>= fun _ => passOpen n (frame :: outside)) (b ++ (label ++ (v ++ rest))) =
        passOn left true frame outside rest := by
  obtain ⟨b', hb', hkey⟩ := passKey_append hlabel hb
  obtain ⟨left, hleft, hpass⟩ := hvalue n (frame :: outside) rest hn hrest
  refine ⟨left, hleft, ?_⟩
  obtain ⟨c, t, rfl, -⟩ := hv
  obtain ⟨m, rfl⟩ : ∃ m, n = m + 1 := ⟨n - 1, by simp only [List.length_cons] at hn; omega⟩
  rw [bind_of_ok (hkey _), skips_passOpen m _ b' _ hb', hpass]
  rfl

/-- An item as it is written begins with its label or its value. -/
theorem begins_item {label : List Char} (hlabel : Labels frame label) (hv : Begins v) :
    Begins (label ++ v) := by
  cases frame with
  | list =>
    obtain rfl : label = [] := hlabel
    exact hv
  | object =>
    exact (Key.begins hlabel IsQuoted.begins).append v

/-- The reader passes over the items that are left in a list or object, and goes on
outside of it. -/
theorem passItems {items : List (List Char × List Char)} {inner : List Char} {first : Bool}
    (h : Listed first (items.map fun i => i.1 ++ i.2) inner)
    (hlabels : ∀ i ∈ items, Labels frame i.1)
    (hvalues : ∀ i ∈ items, Begins i.2 ∧ Passes i.2) (hn : inner.length ≤ n)
    (outside : List Frame) (rest : List Char) :
    ∃ left, n ≤ left + inner.length ∧
      passOn n (!first) frame outside (inner ++ frame.closer :: rest) =
        passBehind left outside rest := by
  -- each item uses up at most as many rounds as it has characters
  induction items generalizing n first inner with
  | nil =>
    cases h with
    | nil hb => exact ⟨n, by omega, passOn_close hb⟩
  | cons i items ih =>
    cases h with
    | @cons _ lead item more _ hlead hmore =>
      have hlabel := hlabels i (by simp)
      obtain ⟨hbegins, hpasses⟩ := hvalues i (by simp)
      simp only [List.length_append] at hn
      obtain ⟨b, hb, hlead⟩ := passOn_lead (s := more ++ frame.closer :: rest) hlead
        (begins_item hlabel hbegins)
      obtain ⟨between, hbetween, hitem⟩ := passItem hlabel hpasses hbegins hb
        (by omega : i.2.length ≤ n) (apart_listed hmore frame rest) outside
      obtain ⟨left, hleft, hitems⟩ := ih hmore (fun i hi => hlabels i (List.mem_cons_of_mem _ hi))
        (fun i hi => hvalues i (List.mem_cons_of_mem _ hi)) (by omega : more.length ≤ between)
      refine ⟨left, by simp only [List.length_append]; omega, ?_⟩
      rw [List.append_assoc, List.append_assoc, hlead, List.append_assoc, hitem]
      exact hitems

theorem opening_list (s : List Char) : passStart ('[' :: s) = .ok (some .list, s) := rfl

theorem opening_object (s : List Char) : passStart ('\x7b' :: s) = .ok (some .object, s) := rfl

/-- A list or an object is passed over if everything in it is. -/
theorem passes_enclosed (frame : Frame) {items : List (List Char × List Char)} {opening : Char}
    (hopen : ∀ s, passStart (opening :: s) = .ok (some frame, s))
    (hlabels : ∀ i ∈ items, Labels frame i.1) (hvalues : ∀ i ∈ items, Begins i.2 ∧ Passes i.2)
    (h : Enclosed opening frame.closer (items.map fun i => i.1 ++ i.2) v) : Passes v := by
  obtain ⟨inner, hinner, rfl⟩ := h
  intro n opened rest hn _
  simp only [List.length_cons, List.length_append, List.length_nil] at hn
  obtain ⟨m, rfl⟩ : ∃ m, n = m + 1 := ⟨n - 1, by omega⟩
  obtain ⟨left, hleft, hread⟩ :=
    passItems hinner hlabels hvalues (by omega : inner.length ≤ m) opened rest
  refine ⟨left, by simp only [List.length_cons, List.length_append]; omega, ?_⟩
  rw [passOpen_succ, List.cons_append, List.append_assoc, List.singleton_append,
    bind_of_ok (hopen _)]
  exact hread

end Reader

/-- The reader passes over every value. -/
theorem IsValue.passes {v : List Char} (h : IsValue v) : Passes v := by
  induction h with
  | word h => exact passes_of_start (IsValue.word h).begins.ne_nil fun _ => passStart_word h _
  | number h => exact passes_of_start h.begins.ne_nil fun hrest => passStart_number h hrest
  | text h => exact passes_of_start h.begins.ne_nil fun _ => passStart_text h _
  | @list items s hitems h ih =>
    have hsame : (items.map fun item => (([] : List Char), item)).map (fun i => i.1 ++ i.2) =
        items := by simp [Function.comp_def]
    refine passes_enclosed .list opening_list ?_ ?_ (hsame ▸ h)
    · simp [Labels]
    · simpa using fun item hitem => ⟨(hitems item hitem).begins, ih item hitem⟩
  | object hkeys hvalues h ih =>
    exact passes_enclosed .object opening_object hkeys
      (fun m hm => ⟨(hvalues m hm).begins, ih m hm⟩) h

/-- A value that nobody wants is passed over, and what stands behind it is left. -/
theorem IsValue.pass {v b rest : List Char} (h : IsValue v) (hb : Blanks b) (hrest : Apart rest) :
    pass (b ++ (v ++ rest)) = .ok ((), rest) := by
  have hrounds : v.length ≤ (b ++ (v ++ rest)).length + 1 := by
    simp only [List.length_append]
    omega
  obtain ⟨left, -, hread⟩ := h.passes _ [] rest hrounds hrest
  exact (skips_passOpen _ [] b _ hb).trans hread

end SongPreview.Json
