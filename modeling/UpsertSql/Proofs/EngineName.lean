import UpsertSql.Engine
import UpsertSql.Proofs.Text.Keyword

/-! The names by which engines are found. A text is taken for an engine if it spells one of its
aliases, and no text spells aliases of two. Of a connection address only the beginning is looked at
that has no colon in it. -/
namespace UpsertSql

/-- The longest beginning of a text in which a character does not occur. -/
structure Text.LongestWithout (c : Char) (s p : List Char) : Prop where
  start : p <+: s
  without : c ∉ p
  longest : ∀ q, q <+: s → c ∉ q → q <+: p

theorem Text.longestWithout_takeWhile (c : Char) (s : List Char) :
    LongestWithout c s (s.takeWhile (· ≠ c)) where
  start := List.takeWhile_prefix _
  without h := by simpa using List.mem_takeWhile_imp h
  longest := by
    rintro q ⟨t, rfl⟩ hq
    have hall : ∀ d ∈ q, decide (d ≠ c) = true := fun d hd =>
      decide_eq_true (ne_of_mem_of_not_mem hd hq)
    rw [List.takeWhile_append_of_pos hall]
    exact List.prefix_append q _

/-- What follows a character does not change the beginning without it. -/
theorem Text.takeWhile_append_cons (c : Char) (s t : List Char) :
    (s ++ c :: t).takeWhile (· ≠ c) = s.takeWhile (· ≠ c) := by
  induction s with
  | nil => simp
  | cons d s ih => rw [List.cons_append, List.takeWhile_cons, List.takeWhile_cons, ih]

namespace Engine

/-- The text spells a name that the engine goes by. -/
def Called (e : Engine) (s : String) : Prop :=
  match e with
  | postgres => Text.Spells "postgres" s ∨ Text.Spells "postgresql" s ∨ Text.Spells "pg" s
  | sqlite => Text.Spells "sqlite" s ∨ Text.Spells "sqlite3" s
  | mysql => Text.Spells "mysql" s ∨ Text.Spells "mariadb" s
  | sqlserver => Text.Spells "sqlserver" s ∨ Text.Spells "mssql" s ∨ Text.Spells "tsql" s

theorem called_iff (e : Engine) (s : String) :
    e.Called s ↔ ∃ name ∈ e.aliases, Text.Spells name s := by
  cases e <;> simp [Called, aliases]

theorem mem_all (e : Engine) : e ∈ all := by
  cases e <;> decide

theorem aliases_plain (e : Engine) :
    ∀ name ∈ e.aliases, ∀ c ∈ name.toList, Text.isBlank c = false ∧ c.toLower = c := by
  have h : e.aliases.all fun name =>
      name.toList.all fun c => !Text.isBlank c && c.toLower == c := by
    cases e <;> rfl
  simpa using h

/-- No two engines share an alias. -/
theorem eq_of_mem_aliases {e e' : Engine} {name : String} (h : name ∈ e.aliases)
    (h' : name ∈ e'.aliases) : e = e' := by
  have hall : ∀ n ∈ e.aliases, n ∈ e'.aliases → e = e' := by
    cases e <;> cases e' <;> decide
  exact hall name h h'

theorem mem_aliases_iff_called (e : Engine) (s : String) :
    String.ofList ((Text.trim s.toList).map Char.toLower) ∈ e.aliases ↔ e.Called s := by
  rw [called_iff]
  constructor
  · intro h
    refine ⟨_, h, (Text.map_toLower_trim_eq_iff (e.aliases_plain _ h)).1 ?_⟩
    rw [String.toList_ofList]
  · rintro ⟨name, hn, hs⟩
    rw [(Text.map_toLower_trim_eq_iff (e.aliases_plain name hn)).2 hs, String.ofList_toList]
    exact hn

theorem find?_all_eq_some_iff (name : String) (e : Engine) :
    all.find? (fun e => e.aliases.contains name) = some e ↔ name ∈ e.aliases := by
  constructor
  · intro h
    simpa using List.find?_some h
  · intro h
    cases hf : all.find? fun e => e.aliases.contains name with
    | none =>
      have := List.find?_eq_none.1 hf e e.mem_all
      simp [h] at this
    | some e' =>
      have h' : name ∈ e'.aliases := by simpa using List.find?_some hf
      rw [eq_of_mem_aliases h h']

theorem parse_eq_ok_iff (s : String) (e : Engine) : parse s = .ok e ↔ e.Called s := by
  rw [← mem_aliases_iff_called, ← find?_all_eq_some_iff, parse]
  split
  · next e' he => rw [he, Except.ok.injEq, Option.some.injEq]
  · next he =>
    rw [he]
    exact ⟨nofun, nofun⟩

theorem parse_eq_error_iff (s : String) (u : UnknownEngine) :
    parse s = .error u ↔ u = ⟨s⟩ ∧ ∀ e : Engine, ¬ e.Called s := by
  simp only [← parse_eq_ok_iff]
  rw [parse]
  split <;> simp [eq_comm]

theorem ofUrl_eq_parse (url : String) :
    ofUrl url = parse (.ofList (url.toList.takeWhile (· ≠ ':'))) := rfl

/-- A colon ends what is looked at. -/
theorem ofUrl_append_colon (p rest : String) : ofUrl (p ++ ":" ++ rest) = ofUrl p := by
  have hl : (p ++ ":" ++ rest).toList = p.toList ++ ':' :: rest.toList := by simp
  rw [ofUrl_eq_parse, hl, Text.takeWhile_append_cons, ofUrl_eq_parse]

theorem ofUrl_name (e : Engine) : ofUrl e.name = .ok e := by
  cases e <;> rfl

-- a letter of another alphabet is not put into lower case, and a second colon comes too late
example : parse "\u017fqlite" = .error ⟨"\u017fqlite"⟩ ∧ ofUrl "SQLite::memory:" = .ok sqlite :=
  ⟨rfl, rfl⟩

end Engine

open Engine in
/-- Parsing takes the texts that spell an alias and no others, which it gives back as they are; an
address is parsed up to its first colon. -/
theorem engines_told_by_name :
    (∀ (s : String) (e : Engine), parse s = .ok e ↔ e.Called s) ∧
    (∀ (s : String) (e e' : Engine), e.Called s → e'.Called s → e = e') ∧
    (∀ (s : String) (u : UnknownEngine),
      parse s = .error u ↔ u = ⟨s⟩ ∧ ∀ e : Engine, ¬ e.Called s) ∧
    (∀ url : String, ∃ p : String,
      Text.LongestWithout ':' url.toList p.toList ∧ ofUrl url = parse p) ∧
    (∀ p rest : String, ofUrl (p ++ ":" ++ rest) = ofUrl p) ∧
    ∀ (e : Engine) (rest : String), ofUrl (e.name ++ ":" ++ rest) = .ok e := by
  refine ⟨parse_eq_ok_iff, ?_, parse_eq_error_iff, ?_, ofUrl_append_colon, ?_⟩
  · intro s e e' h h'
    have hp : (.ok e : Except UnknownEngine Engine) = .ok e' := by
      rw [← (parse_eq_ok_iff s e).2 h, (parse_eq_ok_iff s e').2 h']
    exact Except.ok.inj hp
  · intro url
    refine ⟨.ofList (url.toList.takeWhile (· ≠ ':')), ?_, ofUrl_eq_parse url⟩
    rw [String.toList_ofList]
    exact Text.longestWithout_takeWhile ':' url.toList
  · intro e rest
    rw [ofUrl_append_colon, ofUrl_name]

/-- Blanks of any kind are put up with around a name, but not inside it. -/
theorem engines_told_by_name_mssql :
    Engine.parse "\u2003MsSql\r\n" = .ok .sqlserver ∧
      (∀ e : Engine, e.Called "\u2003MsSql\r\n" → e = .sqlserver) ∧
      Engine.parse "my\u00a0sql" = .error ⟨"my\u00a0sql"⟩ ∧
      (∀ e : Engine, ¬ e.Called "my\u00a0sql") := by
  obtain ⟨hok, hone, herror, -⟩ := engines_told_by_name
  have hp : Engine.parse "\u2003MsSql\r\n" = .ok .sqlserver := by rfl
  have hn : Engine.parse "my\u00a0sql" = .error ⟨"my\u00a0sql"⟩ := by rfl
  refine ⟨hp, ?_, hn, ?_⟩
  · intro e he
    exact hone _ e .sqlserver he ((hok _ _).1 hp)
  · exact ((herror _ _).1 hn).2

end UpsertSql
