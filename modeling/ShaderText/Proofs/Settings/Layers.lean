/-
Hooks in layers. The names of hooks that tables write are laid over each other key by key: after any number
of tables, each trigger has the name that the last table with that trigger writes.
-/
import Mathlib.Data.List.Induction
import ShaderText.Settings.Basic

namespace ShaderText

/-! ## Entries -/

section

variable {α : Type} {key k : String} {value : α} {es : List (String × α)}

theorem mem_keys_setEntry : k ∈ (setEntry key value es).map Prod.fst ↔ k = key ∨ k ∈ es.map Prod.fst := by
  induction es with
  | nil => simp [setEntry]
  | cons e es ih =>
    obtain ⟨k', v⟩ := e
    rw [setEntry]
    split_ifs with hk
    · simp [hk]
    · rw [List.map_cons, List.mem_cons, ih, List.map_cons, List.mem_cons]
      exact or_left_comm

theorem nodup_keys_setEntry (h : (es.map Prod.fst).Nodup) (key : String) (value : α) :
    ((setEntry key value es).map Prod.fst).Nodup := by
  induction es with
  | nil => simp [setEntry]
  | cons e es ih =>
    obtain ⟨k', v⟩ := e
    rw [List.map_cons, List.nodup_cons] at h
    rw [setEntry]
    split_ifs with hk
    · subst hk
      exact List.nodup_cons.2 h
    · rw [List.map_cons, List.nodup_cons, mem_keys_setEntry]
      exact ⟨not_or.2 ⟨hk, h.1⟩, ih h.2⟩

end

namespace Settings

/-! ## The names of a table -/

/-- The entries write texts. -/
def Texts (es : List (String × Datum)) : Prop := ∀ e ∈ es, ∃ name, text? e.2 = some name

/-- The name that entries write for a trigger last. -/
def lastName? (es : List (String × Datum)) (trigger : String) : Option String :=
  es.reverse.findSome? fun e => if trigger = e.1 then text? e.2 else none

theorem lastName?_append (es es' : List (String × Datum)) (trigger : String) :
    lastName? (es ++ es') trigger = (lastName? es' trigger).or (lastName? es trigger) := by
  rw [lastName?, List.reverse_append, List.findSome?_append]
  rfl

theorem lastName?_singleton (e : String × Datum) (trigger : String) :
    lastName? [e] trigger = if trigger = e.1 then text? e.2 else none := by
  simp [lastName?]

theorem lastName?_cons (e : String × Datum) (es : List (String × Datum)) (trigger : String) :
    lastName? (e :: es) trigger =
      (lastName? es trigger).or (if trigger = e.1 then text? e.2 else none) := by
  rw [← lastName?_singleton]
  exact lastName?_append [e] es trigger

theorem lastName?_eq_none {es : List (String × Datum)} {trigger : String}
    (h : trigger ∉ es.map Prod.fst) : lastName? es trigger = none := by
  induction es with
  | nil => rfl
  | cons e es ih =>
    rw [List.map_cons, List.mem_cons, not_or] at h
    rw [lastName?_cons, ih h.2, if_neg h.1]
    rfl

/-- Texts are read as the names of hooks; the last name of a trigger counts. -/
theorem hooks?_of_texts {es : List (String × Datum)} (h : Texts es) :
    ∃ hooks, hooks? (.table es) = some hooks ∧ ∀ trigger : String, hooks[trigger]? = lastName? es trigger := by
  induction es using List.reverseRecOn with
  | nil => exact ⟨∅, rfl, fun trigger => by simp [lastName?]⟩
  | append_singleton es e ih =>
    obtain ⟨hes, he⟩ := List.forall_mem_append.1 h
    obtain ⟨name, hname⟩ := he e (List.mem_singleton_self e)
    obtain ⟨hooks, hread, hhooks⟩ := ih hes
    refine ⟨hooks.insert e.1 name, ?_, fun trigger => ?_⟩
    · rw [hooks?] at hread ⊢
      rw [List.foldlM_append, hread]
      simp [hname]
    · rw [Std.TreeMap.getElem?_insert, hhooks, lastName?_append, lastName?_singleton, hname]
      by_cases htrigger : trigger = e.1
      · simp [htrigger]
      · rw [if_neg htrigger, if_neg (by simpa using Ne.symm htrigger)]
        rfl

/-! ## Names over names -/

/-- The table writes these names of hooks, each key once. -/
structure Writes (es : List (String × Datum)) (names : String → Option String) : Prop where
  nodup : (es.map Prod.fst).Nodup
  texts : Texts es
  names : ∀ trigger, lastName? es trigger = names trigger

theorem texts_setEntry {es : List (String × Datum)} (h : Texts es) {value : Datum} {name : String}
    (hvalue : text? value = some name) (key : String) : Texts (setEntry key value es) := by
  induction es with
  | nil => exact List.forall_mem_singleton.2 ⟨name, hvalue⟩
  | cons e es ih =>
    obtain ⟨he, hes⟩ := List.forall_mem_cons.1 h
    rw [setEntry]
    split_ifs
    · exact List.forall_mem_cons.2 ⟨⟨name, hvalue⟩, hes⟩
    · exact List.forall_mem_cons.2 ⟨he, ih hes⟩

/-- Where each key is there once, setting a text changes just the name of its key. -/
theorem lastName?_setEntry {es : List (String × Datum)} (h : (es.map Prod.fst).Nodup) {value : Datum}
    {name : String} (hvalue : text? value = some name) (key trigger : String) :
    lastName? (setEntry key value es) trigger = if trigger = key then some name else lastName? es trigger := by
  induction es with
  | nil => simp [setEntry, hvalue, lastName?]
  | cons e es ih =>
    obtain ⟨k, v⟩ := e
    rw [List.map_cons, List.nodup_cons] at h
    rw [setEntry]
    by_cases hk : k = key
    · subst hk
      rw [if_pos rfl, lastName?_cons, lastName?_cons, hvalue]
      by_cases htrigger : trigger = k
      · rw [htrigger, lastName?_eq_none h.1]
        simp
      · simp [htrigger]
    · rw [if_neg hk, lastName?_cons, lastName?_cons, ih h.2]
      by_cases htrigger : trigger = key
      · simp [htrigger]
      · simp [htrigger]

theorem Writes.setEntry {es : List (String × Datum)} {names : String → Option String} (h : Writes es names)
    {value : Datum} {name : String} (hvalue : text? value = some name) (key : String) :
    Writes (setEntry key value es) fun trigger => if trigger = key then some name else names trigger where
  nodup := nodup_keys_setEntry h.nodup key value
  texts := texts_setEntry h.texts hvalue key
  names trigger := by rw [lastName?_setEntry h.nodup hvalue, h.names]

theorem layAt_of_text {value : Datum} {name : String} (h : text? value = some name) (key : String)
    (es : List (String × Datum)) : layAt key value (.table es) = .table (setEntry key value es) := by
  cases value with
  | null | list _ | table _ => cases h
  | bool _ | int _ | float _ | text _ | moment _ => simp [layAt, Datum.entries]

/-- The entries with their keys in lower case. -/
def lowered (es : List (String × Datum)) : List (String × Datum) := es.map fun e => (lowerCase e.1, e.2)

/-- Laid over a table, the names of another go first. -/
theorem Writes.layEntries {es above : List (String × Datum)} {names : String → Option String}
    (h : Writes es names) (habove : Texts above) :
    ∃ es', layEntries above (.table es) = .table es' ∧
      Writes es' fun trigger => (lastName? (lowered above) trigger).or (names trigger) := by
  induction above generalizing es names with
  | nil => exact ⟨es, by rw [Settings.layEntries], h⟩
  | cons e above ih =>
    obtain ⟨k, v⟩ := e
    obtain ⟨⟨name, hname⟩, habove⟩ := List.forall_mem_cons.1 habove
    obtain ⟨es', hlay, hes'⟩ := ih (h.setEntry hname (lowerCase k)) habove
    refine ⟨es', by rw [Settings.layEntries, layAt_of_text hname, hlay], ?_⟩
    convert hes' using 2 with trigger
    rw [lowered, List.map_cons, lastName?_cons, hname, lowered, Option.or_assoc]
    split_ifs <;> rfl

/-! ## Hooks among other settings -/

/-- The settings have a table of hooks with these names; where they have none, it is empty. -/
def HasHooks (settings : Datum) (names : String → Option String) : Prop :=
  ∃ es, (settings.get? "hooks").getD .emptyTable = .table es ∧ Writes es names

/-- What a key at the top of a file stands for, unless it reaches into it. -/
def topName? (key : String) : Option String :=
  match keySteps? (lowerCase key) with
  | some [.child name] => some name
  | some _ => none
  | none => some (lowerCase key)

/-- No key of the file reaches into nested settings, and its hooks are written in tables of texts. -/
def PlainHooks (file : List (String × Datum)) : Prop :=
  ∀ e ∈ file, ∃ name, topName? e.1 = some name ∧ (name = "hooks" → ∃ es, e.2 = .table es ∧ Texts es)

/-- The hooks that a file writes. -/
def hookEntries (file : List (String × Datum)) : List (String × Datum) :=
  file.flatMap fun e => if topName? e.1 = some "hooks" then lowered e.2.entries else []

/-- The name that a file writes for a trigger. -/
def hookName? (file : List (String × Datum)) (trigger : String) : Option String :=
  lastName? (hookEntries file) trigger

theorem hookName?_cons (e : String × Datum) (file : List (String × Datum)) (trigger : String) :
    hookName? (e :: file) trigger = (hookName? file trigger).or (hookName? [e] trigger) := by
  have hentries : hookEntries (e :: file) = hookEntries [e] ++ hookEntries file := by
    simp [hookEntries]
  rw [hookName?, hentries, lastName?_append]
  rfl

/-- Laying a value at one key changes nothing at another. -/
theorem get?_layAt_of_ne {key k : String} (h : k ≠ key) (value base : Datum) :
    (layAt key value base).get? k = base.get? k := by
  cases value with
  | table entries => simp [layAt, Datum.get?, Datum.entries, lookup_setEntry, h]
  | _ => simp [layAt, Datum.get?, Datum.entries, lookup_setEntry, h]

theorem HasHooks.layAt {settings : Datum} {names : String → Option String} (h : HasHooks settings names)
    {e : String × Datum} {name : String} (hname : topName? e.1 = some name)
    (htable : name = "hooks" → ∃ es, e.2 = .table es ∧ Texts es) :
    HasHooks (layAt name e.2 settings) fun trigger => (hookName? [e] trigger).or (names trigger) := by
  obtain ⟨es, hes, hwrites⟩ := h
  by_cases hhooks : name = "hooks"
  · obtain ⟨above, habove, htexts⟩ := htable hhooks
    obtain ⟨es', hlay, hes'⟩ := hwrites.layEntries htexts
    refine ⟨es', ?_, ?_⟩
    · rw [habove, hhooks, Settings.layAt, Datum.get?, Datum.entries, lookup_setEntry, if_pos rfl,
        Option.getD_some, hes, hlay]
    · simpa [hookName?, hookEntries, hname, hhooks, habove, Datum.entries] using hes'
  · refine ⟨es, ?_, ?_⟩
    · rw [get?_layAt_of_ne (Ne.symm hhooks), hes]
    · simpa [hookName?, hookEntries, hname, hhooks, lastName?] using hwrites

theorem layTable_cons {e : String × Datum} {name : String} (hname : topName? e.1 = some name)
    (file : List (String × Datum)) (settings : Datum) :
    layTable (.table (e :: file)) settings = layTable (.table file) (layAt name e.2 settings) := by
  rw [topName?] at hname
  rw [layTable, layTable, Datum.entries, Datum.entries, List.foldl_cons]
  split at hname <;> cases hname
  · rename_i hsteps
    simp only [hsteps, layUnder]
  · rename_i hsteps
    simp only [hsteps]

/-- Laid over settings, the hooks of a file go first. -/
theorem HasHooks.layTable {settings : Datum} {names : String → Option String} (h : HasHooks settings names)
    {file : List (String × Datum)} (hfile : PlainHooks file) :
    HasHooks (layTable (.table file) settings) fun trigger =>
      (hookName? file trigger).or (names trigger) := by
  induction file generalizing settings names with
  | nil => exact h
  | cons e file ih =>
    obtain ⟨⟨name, hname, htable⟩, hfile⟩ := List.forall_mem_cons.1 hfile
    have hnext := ih (h.layAt hname htable) hfile
    rw [layTable_cons hname]
    convert hnext using 2 with trigger
    rw [hookName?_cons, Option.or_assoc]

/-! ## Layers -/

/-- The hooks are made up of layers key by key; the last layer that has a key counts. -/
def Merges (layers : List (String → Option String)) (hooks : Std.TreeMap String String) : Prop :=
  ∀ trigger : String, hooks[trigger]? = layers.reverse.findSome? (· trigger)

theorem Merges.getElem?_eq_some_iff {layers : List (String → Option String)}
    {hooks : Std.TreeMap String String} (h : Merges layers hooks) {trigger name : String} :
    hooks[trigger]? = some name ↔ ∃ earlier layer later, layers = earlier ++ layer :: later ∧
      layer trigger = some name ∧ ∀ other ∈ later, other trigger = none := by
  rw [h trigger, List.findSome?_eq_some_iff]
  constructor
  · rintro ⟨later, layer, earlier, hlayers, hname, hlater⟩
    refine ⟨earlier.reverse, layer, later.reverse, ?_, hname, fun other hother => ?_⟩
    · have hback := congrArg List.reverse hlayers
      simpa using hback
    · exact hlater other (List.mem_reverse.1 hother)
  · rintro ⟨earlier, layer, later, rfl, hname, hlater⟩
    exact ⟨later.reverse, layer, earlier.reverse, by simp, hname, fun other hother =>
      hlater other (List.mem_reverse.1 hother)⟩

/-- Files are laid one over the other. -/
theorem foldlM_layFile {texts : List String} {files : List (List (String × Datum))}
    (hread : List.Forall₂ (fun text file => Toml.read? text = some (.table file)) texts files)
    (settings : Datum) : (texts.map Layer.file).foldlM layFile settings =
      .ok (files.foldl (fun settings file => layTable (.table file) settings) settings) := by
  induction hread generalizing settings with
  | nil => rfl
  | cons htext _ ih =>
    rw [List.map_cons, List.foldlM_cons, List.foldl_cons, ← ih, layFile, htext]
    rfl

theorem overrides_files (texts : List String) : overrides (texts.map Layer.file) = .ok [] := by
  induction texts with
  | nil => rfl
  | cons text texts ih =>
    rw [overrides] at ih ⊢
    rw [List.map_cons, List.foldrM_cons, ih]
    rfl

/-- The last layer goes first. -/
theorem findSome?_reverse_concat (below : List (String → Option String)) (names : String → Option String)
    (trigger : String) : (below ++ [names]).reverse.findSome? (· trigger) =
      (names trigger).or (below.reverse.findSome? (· trigger)) := by
  rw [List.reverse_append, List.reverse_singleton, List.singleton_append, List.findSome?_cons]
  cases names trigger <;> rfl

/-- Files laid one over the other have the hooks of all of them. -/
theorem HasHooks.foldl_layTable {settings : Datum} {below : List (String → Option String)}
    (h : HasHooks settings fun trigger => below.reverse.findSome? (· trigger))
    {files : List (List (String × Datum))} (hfiles : ∀ file ∈ files, PlainHooks file) :
    HasHooks (files.foldl (fun settings file => Settings.layTable (.table file) settings) settings)
      fun trigger => (below ++ files.map hookName?).reverse.findSome? (· trigger) := by
  induction files generalizing settings below with
  | nil => simpa using h
  | cons file files ih =>
    obtain ⟨hfile, hfiles⟩ := List.forall_mem_cons.1 hfiles
    have hlaid := h.layTable hfile
    simp only [← findSome?_reverse_concat] at hlaid
    have hall := ih hlaid hfiles
    rwa [List.append_assoc] at hall

theorem hasHooks_base : HasHooks base (hookName? base.entries) := by
  have hmode : topName? "mode" = some "mode" := by decide +kernel
  have hhooks : topName? "hooks" = some "hooks" := by decide +kernel
  have houtput : topName? "output" = some "output" := by decide +kernel
  have htrigger : lowerCase "#" = "#" := by decide +kernel
  refine ⟨[("#", .text "preprocessor")], rfl, by simp, ?_, fun trigger => ?_⟩
  · exact List.forall_mem_singleton.2 ⟨"preprocessor", rfl⟩
  · simp [hookName?, hookEntries, base, Datum.entries, hmode, hhooks, houtput, lowered, htrigger]

/-- Settings that are read have the hooks of what they are read from. -/
theorem getElem?_hooks_of_ofDatum? {d : Datum} {s : Settings} (h : ofDatum? d = some s)
    {names : String → Option String} (hnames : HasHooks d names) (trigger : String) :
    s.hooks[trigger]? = names trigger := by
  obtain ⟨es, hes, hwrites⟩ := hnames
  obtain ⟨hooks, hread, hhooks⟩ := hooks?_of_texts hwrites.texts
  have hsame : s.hooks = hooks := by
    simp only [ofDatum?, Option.bind_eq_bind, Option.bind_eq_some_iff, Option.pure_def, Option.some.injEq,
      hes, hread] at h
    grind
  rw [hsame, hhooks, hwrites.names]

/-- The settings that files make up have the hooks of the files, laid over those that stand under all. -/
theorem merges_of_load {texts : List String} {files : List (List (String × Datum))}
    (hread : List.Forall₂ (fun text file => Toml.read? text = some (.table file)) texts files)
    (hfiles : ∀ file ∈ files, PlainHooks file) {s : Settings}
    (h : load (texts.map Layer.file) = .ok s) :
    Merges ((base.entries :: files).map hookName?) s.hooks := by
  have hbase : HasHooks base fun trigger =>
      [hookName? base.entries].reverse.findSome? (· trigger) := by
    simpa using hasHooks_base
  have hall := hbase.foldl_layTable hfiles
  have hdatum : ofDatum? (files.foldl (fun settings file => layTable (.table file) settings) base) = some s := by
    rw [load, overrides_files, foldlM_layFile hread] at h
    cases hread : ofDatum? (files.foldl (fun settings file => layTable (.table file) settings) base) with
    | none => simp [bind, Except.bind, hread] at h
    | some settings => simpa [bind, Except.bind, hread] using h
  exact fun trigger => getElem?_hooks_of_ofDatum? hdatum hall trigger

end Settings

end ShaderText
