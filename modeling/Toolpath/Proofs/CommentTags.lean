import Toolpath.Proofs.Moves
import Toolpath.Proofs.SameLines
import Toolpath.Proofs.TagValues

/-!
# The parts of a comment

The tags of a comment are the entries of its parts, of which the last with a key counts. So the tags
of two comments with a comma between them are those of the first, replaced by those of the second,
and where no two parts have the same key, their order does not matter. Neither does it to the
machine, although a layer tag depends on the height and on the view of layers: these are settings,
and the settings of a record come before its layer.
-/

namespace Toolpath

namespace Tags

/-- The key of a part of a comment, if it has a colon. -/
def key? (part : List Char) : Option String :=
  (Text.splitFirst? ':' part).map fun (key, _) => String.ofList (Text.lower (Text.trim key))

theorem keys_entries (parts : List (List Char)) :
    (parts.filterMap entry?).map Prod.fst = parts.filterMap key? := by
  have hkey : ∀ part, Prod.fst <$> entry? part = key? part := by
    intro part
    cases h : Text.splitFirst? ':' part <;> simp [h, key?, entry?]
  rw [List.map_filterMap]
  exact List.filterMap_congr fun part _ => hkey part

theorem entries_append (a b : List Char) : entries (a ++ ',' :: b) = entries a ++ entries b := by
  rw [entries, List.splitOn_append_cons_self, List.filterMap_append]
  rfl

theorem entries_of_not_mem {part : List Char} (h : ',' ∉ part) :
    entries part = [part].filterMap entry? := by
  rw [entries, List.splitOn_eq_singleton h]

theorem entries_intercalate {parts : List (List Char)} (h : ∀ part ∈ parts, ',' ∉ part) :
    entries ([','].intercalate parts) = parts.filterMap entry? := by
  by_cases hparts : parts = []
  · rw [hparts]
    rfl
  · rw [entries, List.splitOn_intercalate ',' h hparts]

section Trim

open Text

variable {b : Char} (hb : isBlank b = true)

include hb

theorem entry?_cons_of_isBlank (part : List Char) : entry? (b :: part) = entry? part := by
  have hcolon : b ≠ ':' := ne_of_isBlank hb (by decide)
  unfold entry?
  rw [splitFirst?_cons_of_ne part hcolon, Option.map_map]
  simp only [Function.comp_def, trim_cons_of_isBlank hb]

theorem entry?_concat_of_isBlank (part : List Char) : entry? (part ++ [b]) = entry? part := by
  have hcolon : b ≠ ':' := ne_of_isBlank hb (by decide)
  unfold entry?
  rw [splitFirst?_concat part hcolon, Option.map_map]
  simp only [Function.comp_def, trim_concat _ hb]

theorem entries_cons_of_isBlank (comment : List Char) :
    entries (b :: comment) = entries comment := by
  have hcomma : b ≠ ',' := ne_of_isBlank hb (by decide)
  by_cases h : ',' ∈ comment
  · obtain ⟨first, rest, rfl, hfirst⟩ := List.eq_append_cons_of_mem h
    have hfirst' : ',' ∉ b :: first := List.not_mem_cons_of_ne_of_not_mem hcomma.symm hfirst
    rw [← List.cons_append, entries_append, entries_append, entries_of_not_mem hfirst',
      entries_of_not_mem hfirst, List.filterMap_cons, entry?_cons_of_isBlank hb,
      List.filterMap_cons]
  · have h' : ',' ∉ b :: comment := List.not_mem_cons_of_ne_of_not_mem hcomma.symm h
    rw [entries_of_not_mem h', entries_of_not_mem h, List.filterMap_cons,
      entry?_cons_of_isBlank hb, List.filterMap_cons]

theorem entries_concat_of_isBlank (comment : List Char) :
    entries (comment ++ [b]) = entries comment := by
  have hcomma : ',' ≠ b := (ne_of_isBlank hb (by decide)).symm
  have hlast : ∀ last : List Char, ',' ∉ last → entries (last ++ [b]) = entries last := by
    intro last h
    have h' : ',' ∉ last ++ [b] := by simp [h, hcomma]
    rw [entries_of_not_mem h', entries_of_not_mem h, List.filterMap_cons,
      entry?_concat_of_isBlank hb, List.filterMap_cons]
  -- The parts before the last comma stay as they are, and the blank belongs to the last part.
  by_cases h : ',' ∈ comment.reverse
  · obtain ⟨last, first, hreverse, hnot⟩ := List.eq_append_cons_of_mem h
    have hcomment : comment = first.reverse ++ ',' :: last.reverse := by
      rw [← List.reverse_reverse comment, hreverse]
      simp
    rw [hcomment, List.append_assoc, List.cons_append, entries_append, entries_append,
      hlast _ (by simpa using hnot)]
  · exact hlast comment (by simpa using h)

end Trim

theorem entries_trim (comment : List Char) : entries (Text.trim comment) = entries comment :=
  Text.apply_trim (fun _ s hb => entries_cons_of_isBlank hb s)
    (fun s _ hb => entries_concat_of_isBlank hb s) comment

section Maps

variable {l l' : List (String × TagValue)} {key : String} {value : TagValue}

/-- Of several entries with one key the last one counts. -/
theorem getElem?_ofList (l : List (String × TagValue)) (key : String) :
    (Std.ExtTreeMap.ofList l : Tags)[key]? = l.reverse.lookup key := by
  induction l using List.reverseRecOn with
  | nil => rfl
  | append_singleton l entry ih =>
    obtain ⟨k, v⟩ := entry
    have hinsert : (Std.ExtTreeMap.ofList (l ++ [(k, v)]) : Tags) =
        (Std.ExtTreeMap.ofList l).insert k v := by
      rw [Std.ExtTreeMap.ofList_eq_insertMany_empty, Std.ExtTreeMap.insertMany_append,
        ← Std.ExtTreeMap.ofList_eq_insertMany_empty, Std.ExtTreeMap.insertMany_list_singleton]
    rw [hinsert, Std.ExtTreeMap.getElem?_insert, List.reverse_concat, List.lookup_cons, ← ih]
    by_cases hkey : key = k
    · have heq : compare k k = .eq := Std.ReflCmp.compare_self
      rw [hkey, if_pos heq, beq_self_eq_true]
    · have hne : ¬ compare k key = .eq := fun h => hkey (Std.compare_eq_iff_eq.1 h).symm
      rw [if_neg hne, beq_false_of_ne hkey]

theorem mem_of_getElem?_ofList (h : (Std.ExtTreeMap.ofList l : Tags)[key]? = some value) :
    (key, value) ∈ l := by
  rw [getElem?_ofList, List.lookup_eq_some_iff] at h
  obtain ⟨later, earlier, hreverse, -⟩ := h
  rw [← List.mem_reverse, hreverse]
  exact List.mem_append_right later List.mem_cons_self

theorem getElem?_ofList_iff (h : (l.map Prod.fst).Nodup) :
    (Std.ExtTreeMap.ofList l : Tags)[key]? = some value ↔ (key, value) ∈ l := by
  refine ⟨mem_of_getElem?_ofList, ?_⟩
  refine Std.ExtTreeMap.getElem?_ofList_of_mem Std.ReflCmp.compare_self ?_
  rw [List.Nodup, List.pairwise_map] at h
  exact h.imp fun hne heq => hne (Std.compare_eq_iff_eq.1 heq)

theorem ofList_perm (h : (l.map Prod.fst).Nodup) (hperm : l'.Perm l) :
    (Std.ExtTreeMap.ofList l' : Tags) = Std.ExtTreeMap.ofList l := by
  have h' : (l'.map Prod.fst).Nodup := (hperm.map Prod.fst).nodup_iff.2 h
  apply Std.ExtTreeMap.ext_getElem?
  intro key
  apply Option.ext
  intro value
  rw [getElem?_ofList_iff h, getElem?_ofList_iff h', hperm.mem_iff]

end Maps

/-- What the keys and the values of a comment are like. -/
structure IsNormal (tags : Tags) : Prop where
  key : ∀ key ∈ tags, ∃ raw, key = String.ofList (Text.lower (Text.trim raw))
  number : ∀ (key : String) (x : Float), tags[key]? = some (.number x) → x.isFinite = true
  text : ∀ (key s : String) (x : Float), tags[key]? = some (.text s) →
    TagValue.ofText s.toList ≠ .number x

theorem getElem?_ofComment_append (a b : List Char) (key : String) :
    (ofComment (a ++ ',' :: b))[key]? = (ofComment b)[key]?.or (ofComment a)[key]? := by
  rw [ofComment, ofComment, ofComment, getElem?_ofList, getElem?_ofList, getElem?_ofList,
    entries_append, List.reverse_append, List.lookup_append]

theorem ofComment_trim (comment : List Char) :
    ofComment (Text.trim comment) = ofComment comment := by
  rw [ofComment, entries_trim, ofComment]

theorem exists_of_getElem?_ofComment {comment : List Char} {key : String} {value : TagValue}
    (h : (ofComment comment)[key]? = some value) :
    ∃ rawKey rawValue, key = String.ofList (Text.lower (Text.trim rawKey)) ∧
      TagValue.ofText (Text.trim rawValue) = value := by
  obtain ⟨part, -, hentry⟩ := List.mem_filterMap.1 (mem_of_getElem?_ofList h)
  obtain ⟨⟨rawKey, rawValue⟩, -, hpair⟩ := Option.map_eq_some_iff.1 hentry
  obtain ⟨rfl, rfl⟩ := Prod.mk.inj hpair
  exact ⟨rawKey, rawValue, rfl, rfl⟩

theorem isNormal_ofComment (comment : List Char) : (ofComment comment).IsNormal where
  key key hkey := by
    obtain ⟨rawKey, -, heq, -⟩ :=
      exists_of_getElem?_ofComment (Std.ExtTreeMap.getElem?_eq_some_getElem hkey)
    exact ⟨rawKey, heq⟩
  number key x hx := by
    obtain ⟨-, rawValue, -, hvalue⟩ := exists_of_getElem?_ofComment hx
    exact (TagValue.ofText_eq_number_iff.1 hvalue).2
  text key s x hs := by
    obtain ⟨-, rawValue, -, hvalue⟩ := exists_of_getElem?_ofComment hs
    exact TagValue.ofText_ne_number hvalue x

variable {parts shuffled : List (List Char)}

theorem ofComment_intercalate (h : ∀ part ∈ parts, ',' ∉ part) :
    ofComment ([','].intercalate parts) = Std.ExtTreeMap.ofList (parts.filterMap entry?) := by
  rw [ofComment, entries_intercalate h]

/-- Parts with different keys may stand in any order. -/
theorem ofComment_perm (h : ∀ part ∈ parts, ',' ∉ part) (hkeys : (parts.filterMap key?).Nodup)
    (hperm : shuffled.Perm parts) :
    ofComment ([','].intercalate shuffled) = ofComment ([','].intercalate parts) := by
  have hshuffled : ∀ part ∈ shuffled, ',' ∉ part := fun part hpart => h part (hperm.mem_iff.1 hpart)
  rw [← keys_entries] at hkeys
  rw [ofComment_intercalate h, ofComment_intercalate hshuffled]
  exact ofList_perm hkeys (hperm.filterMap entry?)

end Tags

/-- The record of a line that is nothing but a comment. -/
def Record.ofComment (comment : List Char) : Record := .ofLine (String.ofList (';' :: comment))

namespace Record

theorem withoutComment_ofComment (comment : List Char) :
    (ofComment comment).withoutComment =
      { command := none
        words := Words.ofText (Command.argumentText [])
        comment := none
        tags := Tags.ofComment comment } := by
  rw [← Tags.ofComment_trim comment, ofComment, ofLine, String.toList_ofList, ofText, splitComment,
    Text.splitFirst?_cons_self]
  rfl

theorem isMove_ofComment (comment : List Char) : (ofComment comment).isMove = false := by
  have hcommand : (ofComment comment).command = none :=
    congrArg Record.command (withoutComment_ofComment comment)
  rw [isMove, hcommand]
  rfl

theorem tags_ofComment (comment : List Char) :
    (ofComment comment).tags = Tags.ofComment comment :=
  congrArg Record.tags (withoutComment_ofComment comment)

end Record

/-- A layer tag uses the layer height and the layer view beside it. -/
theorem Modal.step_layer (m : Modal) {r : Record} (hmove : r.isMove = false)
    {layer view : TagValue} {index : Int} {height : Float}
    (hlayer : r.tags["layer"]? = some layer) (hindex : Layer.index? layer = some index)
    (hheight : r.tags["layer_height"]? = some (.number height))
    (hview : r.tags["enable_layer_view"]? = some view) :
    (m.step r).1.position.z =
      if view.isTruthy then Float.ofInt index * height else m.position.z := by
  have hz : (m.applySettings r).layerZ? r =
      if view.isTruthy then some (Float.ofInt index * height) else none := by
    simp [layerZ?, applySettings, Record.tagNumber?, hlayer, hindex, hheight, hview,
      TagValue.number?]
  rw [step_position_of_none m r (m.step_eq_none r hmove), tagged, hz]
  cases view.isTruthy <;> rfl

namespace Machine

theorem process_ofComment_congr (m : Machine) {comment comment' : List Char}
    (h : Tags.ofComment comment' = Tags.ofComment comment) :
    m.process (.ofComment comment') = m.process (.ofComment comment) ∧
      m.applyDirectives (.ofComment comment') = m.applyDirectives (.ofComment comment) := by
  have hsame : (Record.ofComment comment').withoutComment =
      (Record.ofComment comment).withoutComment := by
    rw [Record.withoutComment_ofComment, Record.withoutComment_ofComment, h]
  have hprocess : ∀ r : Record, m.process r = m.process r.withoutComment := fun _ => rfl
  have hdirectives : ∀ r : Record, m.applyDirectives r = m.applyDirectives r.withoutComment :=
    fun _ => rfl
  exact ⟨by rw [hprocess, hsame, ← hprocess], by rw [hdirectives, hsame, ← hdirectives]⟩

/-- The tags of joined comments are those of the first, replaced by those of the second, so that of
several parts with one key the last counts, and blanks around a comment say nothing. Parts with
different keys give the same tags in any order, and do the same to every machine. A layer among them
uses the height and the view of layers that stand before or behind it. -/
theorem comments_compose (m : Machine) {parts shuffled : List (List Char)}
    (hparts : ∀ part ∈ parts, ',' ∉ part) (hkeys : (parts.filterMap Tags.key?).Nodup)
    (hshuffled : shuffled.Perm parts) :
    let comment := [','].intercalate parts
    let comment' := [','].intercalate shuffled
    (∀ (a b : List Char) (key : String), (Tags.ofComment (a ++ ',' :: b))[key]? =
      (Tags.ofComment b)[key]?.or (Tags.ofComment a)[key]?) ∧
    (∀ (a : List Char) (key : String), (Tags.ofComment a)[key]? =
      (Tags.entries a).reverse.lookup key) ∧
    (∀ a, Tags.ofComment (Text.trim a) = Tags.ofComment a) ∧
    (∀ a, (Tags.ofComment a).IsNormal) ∧
    Tags.ofComment comment' = Tags.ofComment comment ∧
    m.process (.ofComment comment') = m.process (.ofComment comment) ∧
    m.applyDirectives (.ofComment comment') = m.applyDirectives (.ofComment comment) ∧
    ∀ {layer view : TagValue} {index : Int} {height : Float},
      ("layer", layer) ∈ parts.filterMap Tags.entry? → Layer.index? layer = some index →
      ("layer_height", .number height) ∈ parts.filterMap Tags.entry? →
      ("enable_layer_view", view) ∈ parts.filterMap Tags.entry? →
      (m.process (.ofComment comment')).1.modal.position.z =
        if view.isTruthy then Float.ofInt index * height else m.modal.position.z := by
  intro comment comment'
  have hsame : Tags.ofComment comment' = Tags.ofComment comment :=
    Tags.ofComment_perm hparts hkeys hshuffled
  obtain ⟨hprocess, hdirectives⟩ := m.process_ofComment_congr hsame
  refine ⟨Tags.getElem?_ofComment_append, fun a => Tags.getElem?_ofList (Tags.entries a),
    Tags.ofComment_trim, Tags.isNormal_ofComment, hsame, hprocess, hdirectives, ?_⟩
  intro layer view index height hlayer hindex hheight hview
  have htag : ∀ {key : String} {value : TagValue}, (key, value) ∈ parts.filterMap Tags.entry? →
      (Record.ofComment comment').tags[key]? = some value := by
    intro key value hentry
    rw [← Tags.keys_entries] at hkeys
    rw [Record.tags_ofComment, hsame, Tags.ofComment_intercalate hparts]
    exact (Tags.getElem?_ofList_iff hkeys).2 hentry
  exact m.modal.step_layer (Record.isMove_ofComment comment') (htag hlayer) hindex (htag hheight)
    (htag hview)

/-- The height stands behind the layer in one comment and before it in the other, where a part
without a colon and blanks around keys and values do not count. -/
theorem comments_compose_layer :
    let m : Machine := .ofOptions {}
    let parts := ["Layer: 3 ", "skin", " enable_layer_view:TRUE", "layer_height:0.5"]
      |>.map String.toList
    let shuffled := ["layer_height:0.5", "Layer: 3 ", " enable_layer_view:TRUE", "skin"]
      |>.map String.toList
    let r : Record := .ofComment ([','].intercalate shuffled)
    (m.process r).1.modal.position.z = 1.5 ∧
      m.process r = m.process (.ofComment ([','].intercalate parts)) := by
  intro m parts shuffled r
  have hparts : ∀ part ∈ parts, ',' ∉ part := by decide +kernel
  have hkeys : (parts.filterMap Tags.key?).Nodup := by decide +kernel
  have hshuffled : shuffled.Perm parts := by decide +kernel
  obtain ⟨-, -, -, -, -, hprocess, -, hlayer⟩ := m.comments_compose hparts hkeys hshuffled
  have hnumber : ("layer", .number 3) ∈ parts.filterMap Tags.entry? := by decide +kernel
  have hheight : ("layer_height", .number 0.5) ∈ parts.filterMap Tags.entry? := by decide +kernel
  have hview : ("enable_layer_view", .text "true") ∈ parts.filterMap Tags.entry? := by
    decide +kernel
  have hindex : Layer.index? (.number 3) = some 3 := by decide +kernel
  refine ⟨(hlayer hnumber hindex hheight hview).trans ?_, hprocess⟩
  decide +kernel

end Machine

end Toolpath
