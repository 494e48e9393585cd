/-
The mode that settings ask for. There is none just if a trigger is not one character, or if its hook has a
name that is not known and does not turn it off. Otherwise the triggers of the mode are those that are not
turned off, with the hooks that their names say, and its grammar has the words of the lists. Where settings
are made up of layers, the last layer that has a trigger decides.
-/
import Mathlib.Data.List.Induction
import ShaderText.Proofs.Settings.Layers
import ShaderText.Proofs.Text.Words
import ShaderText.Settings.Mode

namespace ShaderText

theorem HookKind.name_injective {kind kind' : HookKind} (h : kind.name = kind'.name) : kind = kind' :=
  Option.some.inj ((ofName?_name kind).symm.trans (h ▸ ofName?_name kind'))

theorem singleton_injective {c d : Char} (h : String.singleton c = String.singleton d) : c = d := by
  have hlist := congrArg String.toList h
  simpa using hlist

theorem exists_singleton {text : String} (h : text.toList.length = 1) : ∃ c, text = String.singleton c := by
  obtain ⟨c, hc⟩ := List.length_eq_one_iff.1 h
  exact ⟨c, String.toList_injective (by rw [hc]; simp)⟩

namespace Settings

/-! ## Entries -/

theorem name_ne_hookOff (kind : HookKind) : kind.name ≠ hookOff := by
  cases kind
  decide

/-- The error says what is wrong with a trigger or with the name of its hook. -/
inductive ModeError.Blames : ModeError → String → String → Prop
  | longTrigger {trigger name : String} : trigger.toList.length ≠ 1 →
      Blames (.longTrigger trigger) trigger name
  | unknownHook {trigger name : String} : trigger.toList.length = 1 → name ≠ hookOff →
      (∀ kind : HookKind, name ≠ kind.name) → Blames (.unknownHook name trigger) trigger name

/-- An entry turns its trigger off, gives it a hook, or is refused. -/
theorem addHook_cases (table : HookTable) (trigger name : String) :
    (∃ c, trigger = String.singleton c ∧ name = hookOff ∧ addHook table trigger name = .ok table) ∨
      (∃ (c : Char) (kind : HookKind), trigger = String.singleton c ∧ name = kind.name ∧
        addHook table trigger name = .ok (table.insert c kind.hook)) ∨
      ∃ e : ModeError, e.Blames trigger name ∧ addHook table trigger name = .error e := by
  by_cases hlength : trigger.toList.length = 1
  · obtain ⟨c, rfl⟩ := exists_singleton hlength
    by_cases hoff : name = hookOff
    · exact .inl ⟨c, rfl, hoff, by simp [addHook, hoff]⟩
    · right
      cases hname : HookKind.ofName? name with
      | some kind =>
        have hkind := (HookKind.ofName?_eq_some_iff name kind).1 hname
        exact .inl ⟨c, kind, rfl, hkind, by simp [addHook, hoff, hname]⟩
      | none =>
        refine .inr ⟨_, .unknownHook hlength hoff fun kind hkind => ?_, by simp [addHook, hoff, hname]⟩
        rw [hkind, HookKind.ofName?_name] at hname
        cases hname
  · refine .inr (.inr ⟨_, .longTrigger hlength, ?_⟩)
    unfold addHook
    split
    · rename_i hc
      rw [hc] at hlength
      exact absurd rfl hlength
    · rfl

/-! ## Tables -/

/-- The hooks of the table are those that the entries name. -/
def Names (table : HookTable) (entries : List (String × String)) : Prop :=
  ∀ (c : Char) (hook : Hook), table[c]? = some hook ↔
    ∃ kind : HookKind, (String.singleton c, kind.name) ∈ entries ∧ hook = kind.hook

/-- The table of the hooks that entries name. -/
def hooksOf (entries : List (String × String)) : Except ModeError HookTable :=
  entries.foldlM (fun table (trigger, name) => addHook table trigger name) ∅

theorem hooksOf_concat (entries : List (String × String)) (trigger name : String) :
    hooksOf (entries ++ [(trigger, name)]) = (do addHook (← hooksOf entries) trigger name) := by
  simp [hooksOf]

theorem Names.off {table : HookTable} {entries : List (String × String)} (h : Names table entries)
    (trigger : String) : Names table (entries ++ [(trigger, hookOff)]) := by
  intro c hook
  simp [h c hook, name_ne_hookOff]

theorem Names.insert {table : HookTable} {entries : List (String × String)} (h : Names table entries)
    {c : Char} (hnew : String.singleton c ∉ entries.map Prod.fst) (kind : HookKind) :
    Names (table.insert c kind.hook) (entries ++ [(String.singleton c, kind.name)]) := by
  intro d hook
  rw [Std.TreeMap.getElem?_insert]
  by_cases hd : c = d
  · subst hd
    rw [if_pos (by simp), Option.some.injEq]
    constructor
    · rintro rfl
      exact ⟨kind, List.mem_append_right _ (List.mem_singleton_self _), rfl⟩
    · rintro ⟨kind', hmem, rfl⟩
      rcases List.mem_append.1 hmem with hold | hlast
      · exact absurd (List.mem_map_of_mem hold) hnew
      · have hname : kind'.name = kind.name := congrArg Prod.snd (List.mem_singleton.1 hlast)
        rw [HookKind.name_injective hname]
  · rw [if_neg (by simpa using hd), h d hook]
    have hne (kind' : HookKind) : (String.singleton d, kind'.name) ≠ (String.singleton c, kind.name) :=
      fun heq => hd (singleton_injective (congrArg Prod.fst heq)).symm
    simp only [List.mem_append, List.mem_singleton, hne, or_false]

/-- The trigger is one character, and its hook is turned off or known by its name. -/
def Admits (trigger name : String) : Prop :=
  trigger.toList.length = 1 ∧ (name = hookOff ∨ ∃ kind : HookKind, name = kind.name)

theorem ModeError.Blames.not_admits {trigger name : String} {error : ModeError}
    (h : error.Blames trigger name) : ¬ Admits trigger name := by
  rintro ⟨hlength, hname⟩
  cases h with
  | longTrigger hlong => exact hlong hlength
  | unknownHook _ hoff hunknown =>
    rcases hname with hname | ⟨kind, hname⟩
    · exact hoff hname
    · exact hunknown kind hname

/-- Entries with different triggers make the table that they name, or the error blames one of them. -/
theorem hooksOf_cases {entries : List (String × String)} (hnodup : (entries.map Prod.fst).Nodup) :
    (∃ table, hooksOf entries = .ok table ∧ Names table entries ∧ ∀ e ∈ entries, Admits e.1 e.2) ∨
      ∃ error, hooksOf entries = .error error ∧ ∃ e ∈ entries, error.Blames e.1 e.2 := by
  induction entries using List.reverseRecOn with
  | nil => exact .inl ⟨∅, rfl, fun c hook => by simp, by simp⟩
  | append_singleton entries last ih =>
    obtain ⟨trigger, name⟩ := last
    rw [List.map_append, List.nodup_append] at hnodup
    obtain ⟨hbefore, -, hapart⟩ := hnodup
    have hnew : trigger ∉ entries.map Prod.fst :=
      fun hmem => hapart trigger hmem trigger (by simp) rfl
    rw [hooksOf_concat]
    rcases ih hbefore with ⟨table, hok, hnames, hadmits⟩ | ⟨error, herror, e, he, hblames⟩
    · rw [hok]
      have hadmits' (h : Admits trigger name) : ∀ e ∈ entries ++ [(trigger, name)], Admits e.1 e.2 :=
        List.forall_mem_append.2 ⟨hadmits, List.forall_mem_singleton.2 h⟩
      rcases addHook_cases table trigger name with
        ⟨c, rfl, rfl, hadd⟩ | ⟨c, kind, rfl, rfl, hadd⟩ | ⟨error, hblames, hadd⟩
      · exact .inl ⟨table, hadd, hnames.off _, hadmits' ⟨by simp, .inl rfl⟩⟩
      · exact .inl ⟨_, hadd, hnames.insert hnew kind, hadmits' ⟨by simp, .inr ⟨kind, rfl⟩⟩⟩
      · exact .inr ⟨error, hadd, _, List.mem_append_right _ (List.mem_singleton_self _), hblames⟩
    · rw [herror]
      exact .inr ⟨error, rfl, e, List.mem_append_left _ he, hblames⟩

/-- The hooks of settings make a table just if each of them is admitted. -/
theorem hookTable_cases (s : Settings) :
    (∃ table, s.hookTable = .ok table ∧
      (∀ (c : Char) (hook : Hook), table[c]? = some hook ↔
        ∃ kind : HookKind, s.hooks[String.singleton c]? = some kind.name ∧ hook = kind.hook) ∧
      ∀ trigger name, s.hooks[trigger]? = some name → Admits trigger name) ∨
    ∃ error, s.hookTable = .error error ∧
      ∃ trigger name, s.hooks[trigger]? = some name ∧ error.Blames trigger name := by
  have hnodup : (s.hooks.toList.map Prod.fst).Nodup := by
    rw [Std.TreeMap.map_fst_toList_eq_keys]
    exact Std.TreeMap.nodup_keys
  have hmem (trigger name : String) : (trigger, name) ∈ s.hooks.toList ↔ s.hooks[trigger]? = some name :=
    Std.TreeMap.mem_toList_iff_getElem?_eq_some
  rcases hooksOf_cases hnodup with ⟨table, hok, hnames, hadmits⟩ | ⟨error, herror, ⟨trigger, name⟩, he, hblames⟩
  · refine .inl ⟨table, hok, fun c hook => ?_, fun trigger name h => hadmits _ ((hmem trigger name).2 h)⟩
    rw [hnames c hook]
    simp only [hmem]
  · exact .inr ⟨error, herror, trigger, name, (hmem trigger name).1 he, hblames⟩

/-! ## Words -/

/-- The settings list the word: in their own list, or where they have none in that of the shading language. -/
def Lists (list : Option String) (other : String) (word : List Char) : Prop :=
  IsWordOf word (list.getD other).toList

theorem wordTable_iff (list : Option String) (other : String) (word : List Char) :
    wordTable list (WordSet.ofText other).contains word = true ↔ Lists list other word := by
  cases list with
  | none => exact WordSet.contains_ofText_iff other
  | some words => exact WordSet.contains_ofText_iff words

/-- What a word is after the lists of the settings: a keyword, else a built-in function, else an atom. A
keyword introduces a block if it is in the list of those that do. -/
inductive Classed (s : Settings) (word : List Char) : Option WordClass → Prop
  | keyword {block : Bool} : Lists s.keywords Grammar.shaderKeywords word →
      (block = true ↔ Lists s.blockKeywords Grammar.shaderBlockKeywords word) →
      Classed s word (some (.keyword block))
  | builtin : ¬ Lists s.keywords Grammar.shaderKeywords word →
      Lists s.builtins Grammar.shaderBuiltins word → Classed s word (some .builtin)
  | atom : ¬ Lists s.keywords Grammar.shaderKeywords word →
      ¬ Lists s.builtins Grammar.shaderBuiltins word →
      Lists s.atoms Grammar.shaderAtoms word → Classed s word (some .atom)
  | unknown : ¬ Lists s.keywords Grammar.shaderKeywords word →
      ¬ Lists s.builtins Grammar.shaderBuiltins word →
      ¬ Lists s.atoms Grammar.shaderAtoms word → Classed s word none

theorem classify_grammar (s : Settings) (word : List Char) : s.Classed word (s.grammar.classify word) := by
  have hkeywords : s.grammar.keywords word = true ↔ Lists s.keywords Grammar.shaderKeywords word := by
    simp only [grammar, Grammar.shader, wordTable_iff]
  have hbuiltins : s.grammar.builtins word = true ↔ Lists s.builtins Grammar.shaderBuiltins word := by
    simp only [grammar, Grammar.shader, wordTable_iff]
  have hblocks : s.grammar.blockKeywords word = true ↔
      Lists s.blockKeywords Grammar.shaderBlockKeywords word := by
    simp only [grammar, Grammar.shader, wordTable_iff]
  have hatoms : s.grammar.atoms word = true ↔ Lists s.atoms Grammar.shaderAtoms word := by
    simp only [grammar, Grammar.shader, wordTable_iff]
  unfold Grammar.classify
  split_ifs with hkeyword hbuiltin hatom
  · exact .keyword (hkeywords.1 hkeyword) hblocks
  · exact .builtin (hkeyword ∘ hkeywords.2) (hbuiltins.1 hbuiltin)
  · exact .atom (hkeyword ∘ hkeywords.2) (hbuiltin ∘ hbuiltins.2) (hatoms.1 hatom)
  · exact .unknown (hkeyword ∘ hkeywords.2) (hbuiltin ∘ hbuiltins.2) (hatom ∘ hatoms.2)

/-! ## Modes -/

/-- An entry is not admitted just if an error blames it. -/
theorem exists_blames_iff (trigger name : String) :
    (∃ error : ModeError, error.Blames trigger name) ↔
      trigger.toList.length ≠ 1 ∨ name ≠ hookOff ∧ ∀ kind : HookKind, name ≠ kind.name := by
  constructor
  · rintro ⟨error, hlong | ⟨-, hoff, hunknown⟩⟩
    · exact .inl hlong
    · exact .inr ⟨hoff, hunknown⟩
  · rintro (hlong | ⟨hoff, hunknown⟩)
    · exact ⟨_, .longTrigger hlong⟩
    · by_cases hlength : trigger.toList.length = 1
      · exact ⟨_, .unknownHook hlength hoff hunknown⟩
      · exact ⟨_, .longTrigger hlength⟩

/-- Settings make a mode with their hooks and words, and each of the hooks is admitted; or they make an error
that blames one of them. -/
theorem toMode_cases (s : Settings) :
    (∃ m, s.toMode = .ok m ∧
      (∀ (c : Char) (hook : Hook), m.hooks[c]? = some hook ↔
        ∃ kind : HookKind, s.hooks[String.singleton c]? = some kind.name ∧ hook = kind.hook) ∧
      (∀ trigger name, s.hooks[trigger]? = some name → Admits trigger name) ∧
      m.grammar = s.grammar ∧ m.indentUnit = s.indentUnit ∧ m.tabSize = s.tabSize ∧
      m.multiLineStrings = s.multiLineStrings) ∨
    ∃ error, s.toMode = .error error ∧
      ∃ trigger name, s.hooks[trigger]? = some name ∧ error.Blames trigger name := by
  rcases s.hookTable_cases with ⟨table, hok, hhooks, hadmits⟩ | ⟨error, herror, hblames⟩
  · exact .inl ⟨_, by rw [toMode, hok]; rfl, hhooks, hadmits, rfl, rfl, rfl, rfl⟩
  · exact .inr ⟨error, by rw [toMode, herror]; rfl, hblames⟩

section

variable {s : Settings} {hooks : HookTable}
  (h : ∀ (c : Char) (hook : Hook), hooks[c]? = some hook ↔
    ∃ kind : HookKind, s.hooks[String.singleton c]? = some kind.name ∧ hook = kind.hook)

include h

/-- The triggers of a mode are those of the settings that are not turned off. -/
theorem contains_iff_of_hooks (c : Char) :
    hooks.contains c = true ↔ ∃ kind : HookKind, s.hooks[String.singleton c]? = some kind.name := by
  rw [Std.TreeMap.contains_eq_isSome_getElem?, Option.isSome_iff_exists]
  constructor
  · rintro ⟨hook, hhook⟩
    obtain ⟨kind, hkind, -⟩ := (h c hook).1 hhook
    exact ⟨kind, hkind⟩
  · rintro ⟨kind, hkind⟩
    exact ⟨kind.hook, (h c kind.hook).2 ⟨kind, hkind, rfl⟩⟩

/-- Of the layers that hooks are made up of, the last one that has a trigger decides. -/
theorem contains_iff_of_merges {layers : List (String → Option String)} (hlayers : Merges layers s.hooks)
    (c : Char) : hooks.contains c = true ↔ ∃ earlier layer later, layers = earlier ++ layer :: later ∧
      (∃ kind : HookKind, layer (String.singleton c) = some kind.name) ∧
      ∀ other ∈ later, other (String.singleton c) = none := by
  simp only [contains_iff_of_hooks h c, hlayers.getElem?_eq_some_iff]
  constructor
  · rintro ⟨kind, earlier, layer, later, hsplit, hname, hlater⟩
    exact ⟨earlier, layer, later, hsplit, ⟨kind, hname⟩, hlater⟩
  · rintro ⟨earlier, layer, later, hsplit, ⟨kind, hname⟩, hlater⟩
    exact ⟨kind, earlier, layer, later, hsplit, hname, hlater⟩

end

/-- Settings make no mode just if one of their triggers is not one character, or has a hook that is neither
turned off nor known; the error blames such a trigger. The mode that they make has just the triggers that are
not turned off, each with the hook of its name, and its words are those of the lists. If the hooks are made
up of layers, the mode has a trigger just if the last layer that has it names a hook for it. -/
theorem toMode_exact (s : Settings) :
    ((∃ error, s.toMode = .error error) ↔ ∃ trigger name : String, s.hooks[trigger]? = some name ∧
      (trigger.toList.length ≠ 1 ∨ name ≠ hookOff ∧ ∀ kind : HookKind, name ≠ kind.name)) ∧
    (∀ error, s.toMode = .error error →
      ∃ trigger name, s.hooks[trigger]? = some name ∧ error.Blames trigger name) ∧
    ∀ m, s.toMode = .ok m →
      (∀ trigger, (∃ c, trigger = String.singleton c ∧ m.hooks.contains c = true) ↔
        ∃ name, s.hooks[trigger]? = some name ∧ name ≠ hookOff) ∧
      (∀ (c : Char) (hook : Hook), m.hooks[c]? = some hook ↔
        ∃ kind : HookKind, s.hooks[String.singleton c]? = some kind.name ∧ hook = kind.hook) ∧
      (∀ word, s.Classed word (m.grammar.classify word)) ∧
      (m.indentUnit = s.indentUnit ∧ m.tabSize = s.tabSize ∧ m.multiLineStrings = s.multiLineStrings) ∧
      ∀ layers, Merges layers s.hooks → ∀ c, m.hooks.contains c = true ↔
        ∃ earlier layer later, layers = earlier ++ layer :: later ∧
          (∃ kind : HookKind, layer (String.singleton c) = some kind.name) ∧
          ∀ other ∈ later, other (String.singleton c) = none := by
  rcases s.toMode_cases with ⟨m, hok, hhooks, hadmits, hgrammar, hsettings⟩ | ⟨error, herror, hblames⟩
  · rw [hok]
    refine ⟨⟨fun ⟨_, h⟩ => (nomatch h), ?_⟩, fun _ h => (nomatch h), ?_⟩
    · rintro ⟨trigger, name, hentry, hrefused⟩
      obtain ⟨error, hblames⟩ := (exists_blames_iff trigger name).2 hrefused
      exact absurd (hadmits trigger name hentry) hblames.not_admits
    · rintro _ ⟨⟩
      refine ⟨fun trigger => ⟨?_, ?_⟩, hhooks, fun word => ?_, hsettings,
        fun layers hlayers => contains_iff_of_merges hhooks hlayers⟩
      · rintro ⟨c, rfl, hc⟩
        obtain ⟨kind, hkind⟩ := (contains_iff_of_hooks hhooks c).1 hc
        exact ⟨kind.name, hkind, name_ne_hookOff kind⟩
      · rintro ⟨name, hname, hoff⟩
        obtain ⟨hlength, hknown⟩ := hadmits trigger name hname
        obtain ⟨c, rfl⟩ := exists_singleton hlength
        obtain ⟨kind, rfl⟩ := hknown.resolve_left hoff
        exact ⟨c, rfl, (contains_iff_of_hooks hhooks c).2 ⟨kind, hname⟩⟩
      · rw [hgrammar]
        exact s.classify_grammar word
  · rw [herror]
    obtain ⟨trigger, name, hentry, hrefused⟩ := hblames
    refine ⟨⟨fun _ => ⟨trigger, name, hentry, (exists_blames_iff trigger name).1 ⟨error, hrefused⟩⟩,
      fun _ => ⟨error, rfl⟩⟩, ?_, fun _ h => (nomatch h)⟩
    rintro _ ⟨⟩
    exact ⟨trigger, name, hentry, hrefused⟩

/-- Two layers, of which the upper one turns a trigger off and names another, and a list of keywords. -/
theorem toMode_exact_layers :
    let lower : String → Option String := fun trigger => if trigger = "#" then some "preprocessor" else none
    let upper : String → Option String := fun trigger =>
      if trigger = "@" then some "preprocessor" else if trigger = "#" then some "none" else none
    let hooks : Std.TreeMap String String := (∅ : Std.TreeMap String String).insert "#" "none"
    let s : Settings := ⟨2, 4, false, some "fn  let\tif", none, some "if", none,
      hooks.insert "@" "preprocessor", .simple⟩
    Merges [lower, upper] s.hooks ∧ ∃ m, s.toMode = .ok m ∧ m.hooks.contains '@' = true ∧
      m.hooks.contains '#' ≠ true ∧ m.grammar.classify ['l', 'e', 't'] = some (.keyword false) := by
  intro lower upper hooks s
  have hget (trigger : String) : s.hooks[trigger]? = upper trigger := by
    simp only [s, hooks, upper, Std.TreeMap.getElem?_insert, Std.compare_eq_iff_eq, eq_comm (a := trigger)]
    rfl
  have hlayers : Merges [lower, upper] s.hooks := by
    intro trigger
    have hlast := findSome?_reverse_concat [lower] upper trigger
    rw [hget]
    refine Eq.trans ?_ hlast.symm
    by_cases hhash : trigger = "#"
    · simp [upper, hhash]
    · simp [lower, hhash]
  obtain ⟨hfails, -, hmode⟩ := s.toMode_exact
  cases hs : s.toMode with
  | error error =>
    obtain ⟨trigger, name, hname, hrefused⟩ := hfails.1 ⟨error, hs⟩
    rw [hget] at hname
    simp only [upper] at hname
    split_ifs at hname with hat hhash
    · subst hat
      rcases hrefused with hlong | ⟨-, hunknown⟩
      · exact absurd rfl hlong
      · exact absurd (Option.some.inj hname).symm (hunknown .directive)
    · subst hhash
      rcases hrefused with hlong | ⟨hoff, -⟩
      · exact absurd rfl hlong
      · exact absurd (Option.some.inj hname).symm hoff
  | ok m =>
    obtain ⟨htriggers, -, hwords, -, hlast⟩ := hmode m hs
    refine ⟨hlayers, m, rfl, ?_, ?_, ?_⟩
    · exact (hlast _ hlayers '@').2 ⟨[lower], upper, [], rfl, ⟨.directive, rfl⟩, by simp⟩
    · intro hhash
      obtain ⟨name, hname, hoff⟩ := (htriggers "#").1 ⟨'#', rfl, hhash⟩
      rw [hget] at hname
      exact hoff (Option.some.inj hname).symm
    · have hkeyword : Lists s.keywords Grammar.shaderKeywords ['l', 'e', 't'] :=
        mem_blankSeparatedWords_iff.1 (by decide)
      have hblock : ¬ Lists s.blockKeywords Grammar.shaderBlockKeywords ['l', 'e', 't'] :=
        fun hlists => absurd (mem_blankSeparatedWords_iff.2 hlists) (by decide)
      have hclassed := hwords ['l', 'e', 't']
      generalize m.grammar.classify ['l', 'e', 't'] = found at hclassed ⊢
      cases hclassed with
      | keyword _ hiff => rw [Bool.eq_false_iff.2 fun htrue => hblock (hiff.1 htrue)]
      | builtin hnot | atom hnot | unknown hnot => exact absurd hkeyword hnot

/-! ## Loaded modes -/

/-- All hooks that settings can name are directives. -/
theorem onlyDirectives_of_toMode {s : Settings} {m : Mode} (h : s.toMode = .ok m) :
    m.hooks.OnlyDirectives := by
  rcases s.toMode_cases with ⟨_, hok, hhooks, -⟩ | ⟨_, herror, -⟩
  · obtain rfl := Except.ok.inj (h.symm.trans hok)
    intro c hook hhook
    obtain ⟨kind, -, rfl⟩ := (hhooks c hook).1 hhook
    cases kind
    rfl
  · cases h.symm.trans herror

/-- In the mode that files make up, a character is a trigger just if the last of the files that has it, or
what stands under all of them, names a hook for it. -/
theorem contains_iff_of_load {texts : List String} {files : List (List (String × Datum))}
    (hread : List.Forall₂ (fun text file => Toml.read? text = some (.table file)) texts files)
    (hfiles : ∀ file ∈ files, PlainHooks file) {s : Settings}
    (hload : load (texts.map Layer.file) = .ok s) {m : Mode} (hmode : s.toMode = .ok m) (c : Char) :
    m.hooks.contains c = true ↔ ∃ earlier file later, base.entries :: files = earlier ++ file :: later ∧
      (∃ kind : HookKind, hookName? file (String.singleton c) = some kind.name) ∧
      ∀ other ∈ later, hookName? other (String.singleton c) = none := by
  rcases s.toMode_cases with ⟨_, hok, hhooks, -⟩ | ⟨_, herror, -⟩
  · obtain rfl := Except.ok.inj (hmode.symm.trans hok)
    rw [contains_iff_of_merges hhooks (merges_of_load hread hfiles hload) c]
    constructor
    · rintro ⟨_, _, _, hsplit, hname, hlater⟩
      obtain ⟨earlier, _, hfiles', rfl, hrest⟩ := List.map_eq_append_iff.1 hsplit
      obtain ⟨file, later, rfl, rfl, rfl⟩ := List.map_eq_cons_iff.1 hrest
      exact ⟨earlier, file, later, hfiles', hname, List.forall_mem_map.1 hlater⟩
    · rintro ⟨earlier, file, later, hsplit, hname, hlater⟩
      refine ⟨earlier.map hookName?, hookName? file, later.map hookName?, ?_, hname, List.forall_mem_map.2 hlater⟩
      rw [hsplit, List.map_append, List.map_cons]
  · cases hmode.symm.trans herror

end Settings

end ShaderText
