import Seekwel.SortedMap
import Seekwel.Error
import Mathlib.Data.List.TakeWhile
import Mathlib.Data.String.Basic

/-!
# Form parameters

A form is a list of flat keys with values, and a bracketed key names a path:
`app[settings][region]` the entry `region` of the map `settings` of the map
`app`, and `app[tags][]` a further element of the list `tags`. Inserting the
entries one after the other builds a tree of maps and lists, `ParamValue`.

## What an insertion replaces

An insertion changes what its path leads to, and nothing that a path of keys
beside it leads to, but for one case. Where the path has an empty segment,
there has to be a list, and a map that is there instead is replaced by one.
What it held is gone (`keepsOthers_iff`).

The empty key is the one key whose first segment is empty: it does this to
the parameters as a whole.
-/

namespace Seekwel.Model

/-- A raw form parameter. A map is kept as its entries in the order of their
keys. -/
inductive ParamValue where
  | null
  | scalar (raw : String)
  | list (values : List ParamValue)
  | map (entries : List (String × ParamValue))

/-! ## Keys -/

/-- The segments in brackets that a text consists of, unless it is
malformed. -/
def bracketSegments : List Char → Option (List String)
  | [] => some []
  | c :: rest =>
    if c ≠ '[' then none
    else if ']' ∉ rest then none
    else
      let segment := String.ofList (rest.takeWhile (· ≠ ']'))
      (bracketSegments ((rest.dropWhile (· ≠ ']')).drop 1)).map (segment :: ·)
termination_by chars => chars.length
decreasing_by
  have := (rest.dropWhile_suffix (· ≠ ']')).length_le
  simp only [List.length_drop, List.length_cons]
  omega

/-- The segments of a flat key. A malformed key is a segment of its own. -/
def paramKeySegments (key : String) : List String :=
  let chars := key.toList
  let root := chars.takeWhile (· ≠ '[')
  if '[' ∉ chars then [key]
  else if root.isEmpty then [key]
  else
    match bracketSegments (chars.dropWhile (· ≠ '[')) with
    | none => [key]
    | some segments => String.ofList root :: segments

/-- The characters of segments in brackets. -/
def bracketed (segments : List String) : List Char :=
  segments.flatMap fun segment => '[' :: segment.toList ++ [']']

/-- The flat key of a path. -/
def flatKey (root : String) (segments : List String) : String :=
  root ++ String.ofList (bracketed segments)

theorem bracketSegments_bracketed {segments : List String}
    (h : ∀ segment ∈ segments, ']' ∉ segment.toList) :
    bracketSegments (bracketed segments) = some segments := by
  induction segments with
  | nil => rw [bracketed, List.flatMap_nil, bracketSegments]
  | cons segment segments ih =>
    have hfree := h segment List.mem_cons_self
    have hall : ∀ c ∈ segment.toList, (decide (c ≠ ']')) = true := by
      intro c hc
      simpa using fun heq : c = ']' => hfree (heq ▸ hc)
    have hchars : bracketed (segment :: segments)
        = '[' :: (segment.toList ++ ']' :: bracketed segments) := by
      simp [bracketed]
    have htake : (segment.toList ++ ']' :: bracketed segments).takeWhile (· ≠ ']')
        = segment.toList := by
      rw [List.takeWhile_append_of_pos hall, List.takeWhile_cons_of_neg (by simp),
        List.append_nil]
    have hdrop : (segment.toList ++ ']' :: bracketed segments).dropWhile (· ≠ ']')
        = ']' :: bracketed segments := by
      rw [List.dropWhile_append_of_pos hall, List.dropWhile_cons_of_neg (by simp)]
    rw [hchars, bracketSegments, if_neg (not_not_intro rfl), if_neg (by simp)]
    simp only [htake, hdrop, List.drop_one, List.tail_cons, String.ofList_toList]
    rw [ih fun s hs => h s (List.mem_cons_of_mem _ hs)]
    rfl

/-- **A flat key names its path**, when its root has no bracket and its
segments do not end early. -/
theorem paramKeySegments_flatKey {root : String} {segments : List String} (hne : root ≠ "")
    (hroot : '[' ∉ root.toList) (h : ∀ segment ∈ segments, ']' ∉ segment.toList) :
    paramKeySegments (flatKey root segments) = root :: segments := by
  have hall : ∀ c ∈ root.toList, (decide (c ≠ '[')) = true := by
    intro c hc
    simpa using fun heq : c = '[' => hroot (heq ▸ hc)
  have hchars : (flatKey root segments).toList = root.toList ++ bracketed segments := by
    rw [flatKey, String.toList_append, String.toList_ofList]
  cases segments with
  | nil =>
    have hkey : flatKey root [] = root := by
      simp [flatKey, bracketed]
    rw [hkey, paramKeySegments, if_pos hroot]
  | cons segment segments =>
    have hbracket : bracketed (segment :: segments)
        = '[' :: (segment.toList ++ ']' :: bracketed segments) := by
      simp [bracketed]
    have htake : (root.toList ++ bracketed (segment :: segments)).takeWhile (· ≠ '[')
        = root.toList := by
      rw [List.takeWhile_append_of_pos hall, hbracket, List.takeWhile_cons_of_neg (by simp),
        List.append_nil]
    have hdrop : (root.toList ++ bracketed (segment :: segments)).dropWhile (· ≠ '[')
        = bracketed (segment :: segments) := by
      rw [List.dropWhile_append_of_pos hall, hbracket, List.dropWhile_cons_of_neg (by simp)]
    have hin : '[' ∈ (flatKey root (segment :: segments)).toList := by
      rw [hchars, hbracket]
      simp
    have hnonempty : ¬ root.toList.isEmpty = true := by
      rw [List.isEmpty_iff]
      exact fun hnil => hne (String.toList_inj.mp hnil)
    rw [paramKeySegments, if_neg (not_not_intro hin), hchars, htake, hdrop, if_neg hnonempty,
      bracketSegments_bracketed h, String.ofList_toList]

namespace ParamValue

variable {value self : ParamValue}

/-! ## Insertion -/

/-- The value under a key. -/
def lookup (key : String) (entries : List (String × ParamValue)) : Option ParamValue :=
  (entries.find? fun e => e.1 = key).map Prod.snd

/-- The elements of a list. Anything else is replaced by an empty list. -/
def asListMut : ParamValue → List ParamValue
  | list values => values
  | null | scalar _ | map _ => []

/-- The entries of a map. Anything else is replaced by an empty map. -/
def asMapMut : ParamValue → List (String × ParamValue)
  | map entries => entries
  | null | scalar _ | list _ => []

def containerFor (nextSegment : Option String) : ParamValue :=
  if nextSegment = some "" then list [] else map []

/-- Whether a value takes in a path without giving up what it has. -/
def canInsertPath : List String → ParamValue → Bool
  | [], _ => false
  | segment :: rest, self =>
    if segment = "" then
      match self with
      | list _ => true
      | null | scalar _ | map _ => false
    else
      match self with
      | map entries =>
        if rest.isEmpty then (lookup segment entries).isNone
        else (lookup segment entries).all fun child => canInsertPath rest child
      | null | scalar _ | list _ => false

/-- What a value becomes when another is inserted at a path. -/
def insertPath (value : ParamValue) : List String → ParamValue → ParamValue
  | [], _ => value
  | segment :: rest, self =>
    if segment = "" then
      let values := self.asListMut
      if rest.isEmpty then list (values ++ [value])
      else
        match values.getLast?.filter (canInsertPath rest) with
        | some last => list (values.dropLast ++ [insertPath value rest last])
        | none => list (values ++ [insertPath value rest (containerFor rest.head?)])
    else if rest.isEmpty then map (SortedMap.insertEntry segment value self.asMapMut)
    else
      let child := (lookup segment self.asMapMut).getD (containerFor rest.head?)
      map (SortedMap.insertEntry segment (insertPath value rest child) self.asMapMut)

/-- Inserting a flat form entry. No entry is refused. -/
def insertEntry (self : ParamValue) (key : String) (value : ParamValue) :
    Except Error ParamValue :=
  .ok (insertPath value (paramKeySegments key) self)

/-- Inserting the entries of a form, one after the other. -/
def insertEntries (entries : List (String × ParamValue)) (self : ParamValue) :
    Except Error ParamValue :=
  entries.foldlM (fun values entry => insertEntry values entry.1 entry.2) self

/-- Removing the value at a nested path, which is returned along with the
value that is left. -/
def takePath : List String → ParamValue → Option ParamValue × ParamValue
  | [], self => (none, self)
  | key :: rest, map entries =>
    if rest.isEmpty then (lookup key entries, map (entries.filter fun e => e.1 ≠ key))
    else
      match lookup key entries with
      | none => (none, map entries)
      | some child =>
        let taken := takePath rest child
        (taken.1, map (SortedMap.insertEntry key taken.2 entries))
  | _ :: _, null => (none, null)
  | _ :: _, scalar raw => (none, scalar raw)
  | _ :: _, list values => (none, list values)

/-- What a path of map keys leads to. -/
def get : List String → ParamValue → Option ParamValue
  | [], self => some self
  | key :: rest, map entries => (lookup key entries).bind fun child => get rest child
  | _ :: _, null | _ :: _, scalar _ | _ :: _, list _ => none

@[simp] theorem get_nil : get [] self = some self := by
  cases self <;> rfl

@[simp] theorem get_cons_map (key : String) (rest : List String)
    (entries : List (String × ParamValue)) :
    get (key :: rest) (map entries) = (lookup key entries).bind fun child => get rest child :=
  rfl

theorem lookup_insertEntry (key key' : String) (value : ParamValue)
    (entries : List (String × ParamValue)) :
    lookup key (SortedMap.insertEntry key' value entries)
      = if key = key' then some value else lookup key entries :=
  SortedMap.find?_insertEntry key' key value entries

theorem get_cons (key : String) (rest : List String) (self : ParamValue) :
    get (key :: rest) self = (lookup key self.asMapMut).bind fun child => get rest child := by
  cases self <;> rfl

theorem get_append (path path' : List String) :
    get (path ++ path') self = (get path self).bind fun node => get path' node := by
  induction path generalizing self with
  | nil => rw [get_nil, List.nil_append, Option.bind_some]
  | cons key path ih =>
    rw [List.cons_append, get_cons, get_cons, Option.bind_assoc]
    exact Option.bind_congr fun child _ => ih

/-- A new container is empty. -/
theorem get_containerFor {path : List String} (h : path ≠ []) (next : Option String) :
    get path (containerFor next) = none := by
  cases path with
  | nil => exact absurd rfl h
  | cons key rest =>
    unfold containerFor
    split_ifs
    all_goals rfl

/-- **One step of an insertion**, at a segment that is a key. -/
theorem insertPath_cons {segment : String} (h : segment ≠ "") (rest : List String) :
    insertPath value (segment :: rest) self
      = map (SortedMap.insertEntry segment
          (insertPath value rest ((lookup segment self.asMapMut).getD (containerFor rest.head?)))
          self.asMapMut) := by
  rw [insertPath, if_neg h]
  cases rest with
  | nil => rfl
  | cons next rest => rfl

/-- An insertion at an empty segment leaves a list. -/
theorem exists_list_insertPath (value : ParamValue) (rest : List String) (self : ParamValue) :
    ∃ values, insertPath value ("" :: rest) self = list values := by
  rw [insertPath, if_pos rfl]
  dsimp only
  split
  · exact ⟨_, rfl⟩
  · split
    all_goals exact ⟨_, rfl⟩

/-! ## What an insertion keeps -/

/-- Neither path is the other or leads on from it. -/
def IsBeside (path segments : List String) : Prop :=
  ¬ path <+: segments ∧ ¬ segments <+: path

theorem isBeside_cons {key : String} {path segments : List String} :
    IsBeside (key :: path) (key :: segments) ↔ IsBeside path segments := by
  simp [IsBeside, List.cons_prefix_cons]

theorem isBeside_cons_of_ne {key key' : String} {path segments : List String}
    (h : key ≠ key') : IsBeside (key :: path) (key' :: segments) := by
  simp [IsBeside, List.cons_prefix_cons, h, Ne.symm h]

theorem isBeside_append {path segments segments' : List String} :
    IsBeside (path ++ segments) (path ++ segments') ↔ IsBeside segments segments' := by
  simp [IsBeside, List.prefix_append_right_inj]

/-- Whether a value holds something that a path of keys beside the given one
leads to. -/
def holdsBeside : List String → ParamValue → Bool
  | [], _ => false
  | segment :: rest, map entries =>
    entries.any (fun e => e.1 ≠ segment)
      || (lookup segment entries).any fun child => holdsBeside rest child
  | _ :: _, null | _ :: _, scalar _ | _ :: _, list _ => false

theorem lookup_isSome_of_mem {entries : List (String × ParamValue)}
    {e : String × ParamValue} (h : e ∈ entries) : ∃ child, lookup e.1 entries = some child := by
  have hfound : (entries.find? fun e' => e'.1 = e.1).isSome := by
    rw [List.find?_isSome]
    exact ⟨e, h, by simp⟩
  obtain ⟨e', he'⟩ := Option.isSome_iff_exists.mp hfound
  exact ⟨e'.2, by rw [lookup, he']; rfl⟩

theorem mem_of_lookup {entries : List (String × ParamValue)} {key : String}
    (h : lookup key entries = some value) : (key, value) ∈ entries := by
  rw [lookup, Option.map_eq_some_iff] at h
  obtain ⟨⟨key', value'⟩, hfound, rfl⟩ := h
  have hkey : key' = key := by simpa using List.find?_some hfound
  exact hkey ▸ List.mem_of_find?_eq_some hfound

theorem holdsBeside_iff {segments : List String} :
    holdsBeside segments self = true
      ↔ ∃ path value, get path self = some value ∧ IsBeside path segments := by
  induction segments generalizing self with
  | nil =>
    -- every path leads on from the empty one
    refine iff_of_false (by simp [holdsBeside]) ?_
    rintro ⟨path, value, _, hbeside⟩
    exact hbeside.2 List.nil_prefix
  | cons segment rest ih =>
    have hnil : ¬ IsBeside [] (segment :: rest) := fun h => h.1 List.nil_prefix
    cases self with
    | map entries =>
      rw [holdsBeside, Bool.or_eq_true, List.any_eq_true, Option.any_eq_true]
      constructor
      · rintro (⟨e, he, hkey⟩ | ⟨child, hchild, hbeside⟩)
        · obtain ⟨child, hchild⟩ := lookup_isSome_of_mem he
          exact ⟨[e.1], child, by simp [hchild], isBeside_cons_of_ne (by simpa using hkey)⟩
        · obtain ⟨path, value, hget, hbeside⟩ := ih.mp hbeside
          exact ⟨segment :: path, value, by rw [get_cons_map, hchild]; exact hget,
            isBeside_cons.mpr hbeside⟩
      · rintro ⟨path, value, hget, hbeside⟩
        cases path with
        | nil => exact absurd hbeside hnil
        | cons key path =>
          rw [get_cons_map, Option.bind_eq_some_iff] at hget
          obtain ⟨child, hchild, hget⟩ := hget
          by_cases hkey : key = segment
          · subst hkey
            exact Or.inr ⟨child, hchild, ih.mpr ⟨path, value, hget, isBeside_cons.mp hbeside⟩⟩
          · exact Or.inl ⟨(key, child), mem_of_lookup hchild, by simpa using hkey⟩
    | null | scalar | list =>
      refine iff_of_false (by simp [holdsBeside]) ?_
      rintro ⟨path, value, hget, hbeside⟩
      cases path with
      | nil => exact hnil hbeside
      | cons key path => cases hget

/-- The segments of a key before the first empty one. -/
def segmentsBeforeList (key : String) : List String :=
  (paramKeySegments key).takeWhile (· ≠ "")

/-- The segments of a key from the first empty one on. -/
def segmentsFromList (key : String) : List String :=
  (paramKeySegments key).dropWhile (· ≠ "")

/-- **Nothing is lost beside a path**: what other paths of map keys lead to
stays as it is. -/
def KeepsOthers (self : ParamValue) (key : String) (value : ParamValue) : Prop :=
  ∀ tree, insertEntry self key value = .ok tree →
    ∀ path kept, get path self = some kept → IsBeside path (paramKeySegments key) →
      get path tree = some kept

/-- No map with other entries has to become a list. -/
def FitsList (self : ParamValue) (key : String) : Prop :=
  ∀ node, get (segmentsBeforeList key) self = some node →
    holdsBeside (segmentsFromList key) node = false

theorem IsBeside.ne_nil {path segments : List String} (h : IsBeside path segments) :
    path ≠ [] := by
  rintro rfl
  exact h.1 List.nil_prefix

/-- **What paths beside that of an insertion lead to** stays as it is. -/
theorem get_insertPath {segments path : List String}
    (hfits : ∀ node, get (segments.takeWhile (· ≠ "")) self = some node →
      holdsBeside (segments.dropWhile (· ≠ "")) node = false)
    (hbeside : IsBeside path segments) :
    get path (insertPath value segments self) = get path self := by
  induction segments generalizing self path with
  | nil => exact absurd List.nil_prefix hbeside.2
  | cons segment rest ih =>
    cases path with
    | nil => exact absurd rfl hbeside.ne_nil
    | cons key path =>
      by_cases hsegment : segment = ""
      · -- here the value becomes a list, so nothing may be beside the path
        subst hsegment
        have hnone := hfits self get_nil
        rw [List.dropWhile_cons_of_neg (by simp), Bool.eq_false_iff, ne_eq,
          holdsBeside_iff] at hnone
        obtain ⟨values, hvalues⟩ := exists_list_insertPath value rest self
        have hlost : get (key :: path) self = none :=
          Option.eq_none_iff_forall_ne_some.mpr
            fun kept hget => hnone ⟨key :: path, kept, hget, hbeside⟩
        rw [hvalues, hlost]
        rfl
      · rw [List.takeWhile_cons_of_pos (by simpa using hsegment),
          List.dropWhile_cons_of_pos (by simpa using hsegment)] at hfits
        rw [insertPath_cons hsegment, get_cons_map, lookup_insertEntry, get_cons]
        split_ifs with hkey
        · subst hkey
          have hbeside := isBeside_cons.mp hbeside
          show get path (insertPath value rest _) = _
          cases hchild : lookup key self.asMapMut with
          | some child =>
            refine ih (fun node hnode => hfits node ?_) hbeside
            rw [get_cons, hchild]
            exact hnode
          | none =>
            rw [Option.getD_none, ih (fun node hnode => ?_) hbeside,
              get_containerFor hbeside.ne_nil, Option.bind_none]
            -- nothing is beside a path in a new container
            rw [Bool.eq_false_iff, ne_eq, holdsBeside_iff]
            rintro ⟨path', kept, hget, hbeside'⟩
            have happend : get (rest.takeWhile (· ≠ "") ++ path') (containerFor rest.head?)
                = _ := get_append (rest.takeWhile (· ≠ "")) path'
            rw [hnode, Option.bind_some, hget, get_containerFor] at happend
            · cases happend
            · exact List.append_ne_nil_of_right_ne_nil _ hbeside'.ne_nil
        · rfl

/-- **An insertion goes on in what its first segments lead to**, which is a
new container if that is nothing. -/
theorem get_insertPath_append {before : List String}
    (hbefore : ∀ segment ∈ before, segment ≠ "") (rest : List String) :
    get before (insertPath value (before ++ rest) self)
      = some (insertPath value rest ((get before self).getD (containerFor rest.head?))) := by
  induction before generalizing self with
  | nil => rw [List.nil_append, get_nil, get_nil, Option.getD_some]
  | cons segment before ih =>
    rw [List.cons_append, insertPath_cons (hbefore segment List.mem_cons_self), get_cons_map,
      lookup_insertEntry, if_pos rfl, Option.bind_some,
      ih fun s hs => hbefore s (List.mem_cons_of_mem _ hs), get_cons]
    congr 2
    cases hchild : lookup segment self.asMapMut with
    | some child => rfl
    | none =>
      cases before with
      | nil => rw [Option.getD_none, get_nil, List.nil_append, Option.getD_some]; rfl
      | cons next before => rw [Option.getD_none, get_containerFor (by simp)]; rfl

/-- The first segment of a key is empty for the empty key alone. -/
theorem exists_segments {key : String} (h : key ≠ "") :
    ∃ segment rest, paramKeySegments key = segment :: rest ∧ segment ≠ "" := by
  unfold paramKeySegments
  dsimp only
  split_ifs with hbracket hroot
  · exact ⟨key, [], rfl, h⟩
  · -- a root in front of brackets is not empty
    split
    · exact ⟨key, [], rfl, h⟩
    · refine ⟨_, _, rfl, fun hempty => hroot ?_⟩
      rw [List.isEmpty_iff]
      simpa using congrArg String.toList hempty
  · exact ⟨key, [], rfl, h⟩

/-- **Inserting an entry keeps the parameters a map**, and everything that
paths beside its own lead to, if no map with other entries has to become a
list. -/
theorem keepsOthers_iff {key : String} (hkey : key ≠ "") (self value : ParamValue) :
    (∃ entries, insertEntry self key value = .ok (map entries))
      ∧ (KeepsOthers self key value ↔ FitsList self key) := by
  constructor
  · obtain ⟨segment, rest, hsegments, hsegment⟩ := exists_segments hkey
    exact ⟨_, by rw [insertEntry, hsegments, insertPath_cons hsegment]⟩
  · constructor
    · intro hkeeps node hnode
      by_contra hbeside
      rw [Bool.not_eq_false, holdsBeside_iff] at hbeside
      obtain ⟨path, kept, hget, hbeside⟩ := hbeside
      have hsplit : segmentsBeforeList key ++ segmentsFromList key = paramKeySegments key :=
        List.takeWhile_append_dropWhile
      have hkept := hkeeps _ rfl (segmentsBeforeList key ++ path) kept
        (by rw [get_append, hnode]; exact hget)
        (by rw [← hsplit]; exact isBeside_append.mpr hbeside)
      have hbefore : ∀ segment ∈ segmentsBeforeList key, segment ≠ "" := by
        intro segment hsegment
        simpa using List.mem_takeWhile_imp hsegment
      rw [← hsplit, get_append, get_insertPath_append hbefore, hnode, Option.bind_some,
        Option.getD_some] at hkept
      -- the node is a list now
      cases hrest : segmentsFromList key with
      | nil => exact absurd (hrest ▸ List.nil_prefix) hbeside.2
      | cons segment rest =>
        have hempty : segment = "" := by
          have hhead := List.head?_dropWhile_not (fun s : String => decide (s ≠ ""))
            (paramKeySegments key)
          rw [show (paramKeySegments key).dropWhile _ = segment :: rest from hrest] at hhead
          simpa using hhead
        subst hempty
        obtain ⟨values, hvalues⟩ := exists_list_insertPath value rest node
        rw [hrest, hvalues] at hkept
        cases path with
        | nil => exact absurd List.nil_prefix hbeside.1
        | cons => cases hkept
    · intro hfits tree htree path kept hget hbeside
      obtain rfl := Except.ok.inj htree
      rw [get_insertPath hfits hbeside, hget]

/-! ## Runs -/

/-- An app with a name. -/
def namedApp : ParamValue := map [("app", map [("name", scalar "Calendar")])]

theorem tag_keeps_others :
    (∃ entries, insertEntry namedApp (flatKey "app" ["tags", ""]) (scalar "ios")
        = .ok (map entries))
      ∧ (KeepsOthers namedApp (flatKey "app" ["tags", ""]) (scalar "ios")
        ↔ FitsList namedApp (flatKey "app" ["tags", ""])) :=
  keepsOthers_iff (by decide) namedApp (scalar "ios")

/-- `app[]` after `app[name]`: the name is lost. -/
theorem name_lost :
    ¬ KeepsOthers namedApp (flatKey "app" [""]) (scalar "ios") := by
  have hsegments : paramKeySegments (flatKey "app" [""]) = ["app", ""] :=
    paramKeySegments_flatKey (by decide) (by decide) (by decide)
  intro hkeeps
  have hname := hkeeps _ rfl ["app", "name"] (scalar "Calendar") rfl
    (by rw [hsegments, IsBeside]; decide)
  rw [hsegments] at hname
  cases hname

end ParamValue

end Seekwel.Model
