import Mathlib.Data.List.Basic

/-!
# Pointers into a document (RFC 6901)

A pointer is the labels that lead into a document, each after a slash and with `~` and `/`
escaped. Escaping is by replacement of one character after the other; that a pointer can be
read back is that no escaped label holds a slash and that escapes are undone.
-/

namespace Pointer

open String String.Slice.Pattern

/-! ### Replacing a character -/

/-- The text with every `c` put into its place `r`. -/
def replaceAll (c : Char) (r : List Char) (cs : List Char) : List Char :=
  cs.flatMap (fun d => if d = c then r else [d])

theorem replaceAll_append (c : Char) (r cs cs' : List Char) :
    replaceAll c r (cs ++ cs') = replaceAll c r cs ++ replaceAll c r cs' :=
  List.flatMap_append

theorem replaceAll_of_not_mem {c : Char} {r cs : List Char} (h : c ∉ cs) :
    replaceAll c r cs = cs := by
  induction cs with
  | nil => rfl
  | cons d cs ih =>
    rw [List.mem_cons, not_or] at h
    have hd : d ≠ c := fun hd => h.1 hd.symm
    unfold replaceAll at ih ⊢
    rw [List.flatMap_cons, if_neg hd, ih h.2]
    rfl

/-- What one step of a search adds to the text replaced so far. -/
def replaceStep {s : Slice} (r sofar : String) : SearchStep s → String
  | .matched _ _ => sofar ++ r.toSlice
  | .rejected start stop => sofar ++ s.slice! start stop

theorem slice_between {s : Slice} {p q : s.Pos} {t₁ t t₂ : String} (hp : p.Splits t₁ (t ++ t₂))
    (hq : q.Splits (t₁ ++ t) t₂) : (s.slice! p q).copy = t := by
  obtain ⟨hle, ht⟩ := Slice.copy_slice_eq_iff_splits.mpr ⟨t₁, t₂, hp, hq⟩
  rw [← Slice.slice_eq_slice! (h := hle)]
  exact ht

theorem foldl_replaceStep {s : Slice} {c : Char} {r : String} {p : s.Pos} {l : List (SearchStep s)}
    (h : Model.IsValidSearchFrom (String.singleton c) p l) {t₁ t₂ : String} (ht : p.Splits t₁ t₂)
    (acc : String) : (l.foldl (replaceStep r) acc).toList =
      acc.toList ++ replaceAll c r.toList t₂.toList := by
  induction h generalizing t₁ t₂ acc with
  | endPos =>
    obtain ⟨-, rfl⟩ := Slice.splits_endPos_iff.mp ht
    simp [replaceAll]
  | matched hmatch _ ih =>
    rw [Model.ForwardStringSearcher.isLongestMatchAt_iff_splits] at hmatch
    obtain ⟨u₁, u₂, hu, hnext⟩ := hmatch
    obtain ⟨rfl, rfl⟩ := ht.eq hu
    rw [List.foldl_cons, ih hnext]
    change (acc ++ r.toSlice.copy).toList ++ _ = _
    simp [replaceAll]
  | @mismatched l start stop hlt hno _ ih =>
    have hstop := stop.splits
    obtain ⟨t, -, hleft, rfl⟩ := (ht.lt_iff_exists_eq_append hstop).mp hlt
    rw [hleft] at hstop
    have hrest : c ∉ t.toList := by
      intro hc
      obtain ⟨a, b, hab⟩ := List.append_of_mem hc
      have htext : t = String.ofList a ++ (String.singleton c ++ String.ofList b) := by
        rw [← String.toList_inj]
        simpa using hab
      have hcopy : s.copy = (t₁ ++ String.ofList a) ++ (String.singleton c ++
          (String.ofList b ++ (s.sliceFrom stop).copy)) := by
        rw [ht.eq_append, htext]
        simp only [String.append_assoc]
      have hmid := Slice.Pos.splits_ofEqAppend hcopy
      refine hno (Slice.Pos.ofEqAppend hcopy) ?_ ?_ ?_
      · refine (ht.le_iff_exists_eq_append hmid).mpr ⟨String.ofList a, rfl, ?_⟩
        rw [htext]
        simp only [String.append_assoc]
      · refine (hmid.lt_iff_exists_eq_append hstop).mpr
          ⟨String.singleton c ++ String.ofList b, by simp, ?_, ?_⟩
        · rw [htext, String.append_assoc]
        · rw [String.append_assoc]
      · exact Model.ForwardStringSearcher.matchesAt_iff_splits.mpr ⟨_, _, hmid⟩
    rw [List.foldl_cons, ih hstop]
    change (acc ++ (s.slice! start stop).copy).toList ++ _ = _
    rw [slice_between ht hstop, String.toList_append, String.toList_append, replaceAll_append,
      replaceAll_of_not_mem hrest, List.append_assoc]

theorem toList_replace (s : String) (c : Char) (r : String) :
    (s.replace (String.singleton c) r).toList = replaceAll c r.toList s.toList := by
  have hpat : String.singleton c ≠ "" := by simp
  have hvalid := (Model.ForwardStringSearcher.lawfulToForwardSearcherModel
    hpat).isValidSearchFrom_toList s.toSlice
  have hfold := foldl_replaceStep (r := r) hvalid (Slice.splits_startPos _) ""
  rw [Std.Iter.foldl_toList] at hfold
  have hreplace : s.replace (String.singleton c) r =
      Std.Iter.fold (replaceStep r) ""
        (ToForwardSearcher.toSearcher (String.singleton c) s.toSlice) := by
    unfold String.replace Slice.replace
    congr 1
    funext sofar step
    cases step <;> rfl
  rw [hreplace]
  simpa using hfold

/-! ### Escaped labels -/

def escape (label : String) : String := (label.replace "~" "~0").replace "/" "~1"

def escapeChar (c : Char) : List Char :=
  if c = '~' then ['~', '0'] else if c = '/' then ['~', '1'] else [c]

theorem toList_escape (label : String) : (escape label).toList =
    label.toList.flatMap escapeChar := by
  have htilde := toList_replace label '~' "~0"
  have hslash := toList_replace (label.replace (String.singleton '~') "~0") '/' "~1"
  rw [htilde] at hslash
  refine hslash.trans ?_
  unfold replaceAll
  rw [List.flatMap_assoc]
  congr 1
  funext c
  unfold escapeChar
  split
  · rfl
  · split
    · rename_i h
      rw [h]
      rfl
    · rename_i h
      simp [h]

/-- Undoes the escapes; a tilde before anything but `0` and `1` is none. -/
def unescape : List Char → Option (List Char)
  | [] => some []
  | '~' :: '0' :: cs => (unescape cs).map ('~' :: ·)
  | '~' :: '1' :: cs => (unescape cs).map ('/' :: ·)
  | '~' :: _ => none
  | c :: cs => (unescape cs).map (c :: ·)

theorem unescape_cons {c : Char} (h : c ≠ '~') (cs : List Char) :
    unescape (c :: cs) = (unescape cs).map (c :: ·) := by
  rw [unescape]
  · intro _ hc
    exact absurd hc h
  · intro _ hc
    exact absurd hc h
  · exact h

theorem unescape_escape (cs : List Char) : unescape (cs.flatMap escapeChar) = some cs := by
  induction cs with
  | nil => rfl
  | cons c cs ih =>
    rw [List.flatMap_cons, escapeChar]
    split
    · rename_i h
      rw [h]
      change (unescape (cs.flatMap escapeChar)).map _ = _
      rw [ih]
      rfl
    · split
      · rename_i h
        rw [h]
        change (unescape (cs.flatMap escapeChar)).map _ = _
        rw [ih]
        rfl
      · rename_i h _
        change unescape (c :: cs.flatMap escapeChar) = _
        rw [unescape_cons h, ih]
        rfl

theorem slash_not_mem_escape (label : String) : '/' ∉ (escape label).toList := by
  rw [toList_escape, List.mem_flatMap]
  rintro ⟨c, -, hc⟩
  unfold escapeChar at hc
  split at hc
  · simp at hc
  · split at hc
    · simp at hc
    · rename_i h
      simp only [List.mem_singleton] at hc
      exact h hc.symm

/-! ### Pointers -/

def push (base label : String) : String := base ++ "/" ++ escape label

/-- The pointer of the labels that lead on from `base`. -/
def render (base : String) (labels : List String) : String := labels.foldl push base

/-- The labels of a pointer: what stands after its slashes. -/
def decode (pointer : String) : Option (List String) :=
  if (pointer.toList.splitOn '/').head? = some [] then
    ((pointer.toList.splitOn '/').tail.mapM unescape).map (List.map String.ofList)
  else none

theorem toList_render (base : String) (labels : List String) : (render base labels).toList =
    base.toList ++ labels.flatMap (fun label => '/' :: (escape label).toList) := by
  induction labels generalizing base with
  | nil => simp [render]
  | cons label labels ih =>
    have hrest := ih (push base label)
    unfold render at hrest ⊢
    rw [List.foldl_cons, hrest, push]
    simp

theorem intercalate_slash (x : List Char) (segments : List (List Char)) :
    ['/'].intercalate (x :: segments) = x ++ segments.flatMap ('/' :: ·) := by
  induction segments generalizing x with
  | nil => simp
  | cons y segments ih =>
    rw [List.intercalate_cons_cons, ih]
    simp

theorem mapM_unescape (labels : List String) :
    (labels.map (fun label => (escape label).toList)).mapM unescape =
      some (labels.map String.toList) := by
  induction labels with
  | nil => rfl
  | cons label labels ih =>
    rw [List.map_cons, List.mapM_cons, ih, toList_escape, unescape_escape]
    rfl

theorem decode_render (labels : List String) : decode (render "" labels) = some labels := by
  have hsplit : (render "" labels).toList.splitOn '/' =
      [] :: labels.map (fun label => (escape label).toList) := by
    have htext : (render "" labels).toList =
        ['/'].intercalate ([] :: labels.map (fun label => (escape label).toList)) := by
      rw [toList_render, intercalate_slash, List.flatMap_map]
      rfl
    rw [htext, List.splitOn_intercalate]
    · intro segment hsegment
      rcases List.mem_cons.mp hsegment with rfl | hsegment
      · exact List.not_mem_nil
      · obtain ⟨label, -, rfl⟩ := List.mem_map.mp hsegment
        exact slash_not_mem_escape label
    · exact List.cons_ne_nil _ _
  rw [decode, hsplit, List.head?_cons, if_pos rfl, List.tail_cons, mapM_unescape]
  simp

end Pointer
