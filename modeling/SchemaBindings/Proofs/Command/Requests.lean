import Mathlib.Data.List.Nodup
import SchemaBindings.Command.Run
import SchemaBindings.Proofs.Outcome

/-! What options ask for. They make a run when at least one language is asked for, and none without
the package that it needs. -/

namespace SchemaBindings.Command

open Output (Order)

variable {o : Options} {language : Language} {placed asked : List Order} {fault : SetupFault}

/-- The setting that asks for a language. Its value is the directory. -/
def directorySetting : Language → Setting
  | .java => .javaOut
  | .rust => .rustOut
  | .go => .goOut
  | .typescript => .typescriptOut

def packageSetting? : Language → Option Setting
  | .java => some .javaPackage
  | .go => some .goPackage
  | .rust => none
  | .typescript => none

/-- A target that is asked for, with all that it needs. -/
structure Requests (o : Options) (order : Order) : Prop where
  directory : o.value? (directorySetting order.target.language) = some order.directory
  package : match packageSetting? order.target.language with
    | some setting => o.value? setting = some order.target.package
    | none => order.target.package = ""

/-- Some language is asked for, and none lacks its package. -/
structure Complete (o : Options) : Prop where
  some : ∃ language, (o.value? (directorySetting language)).isSome = true
  packaged : ∀ language setting, (o.value? (directorySetting language)).isSome = true →
    packageSetting? language = .some setting → (o.value? setting).isSome = true

/-- The orders that options place: all that is asked for, each language once and in a fixed order. -/
structure Asks (o : Options) (asked : List Order) : Prop where
  listed : ∀ order, order ∈ asked ↔ Requests o order
  languages : (asked.map (·.target.language)).Sublist [.java, .rust, .go, .typescript]

theorem Asks.nodup (asks : Asks o asked) : (asked.map (·.target.language)).Nodup :=
  asks.languages.nodup (by decide)

/-- The place of a language among all. -/
def rank : Language → Nat
  | .java => 0
  | .rust => 1
  | .go => 2
  | .typescript => 3

theorem Asks.increasing (asks : Asks o asked) :
    asked.Pairwise fun a b => rank a.target.language < rank b.target.language := by
  have all : [Language.java, .rust, .go, .typescript].Pairwise fun a b => rank a < rank b := by
    decide
  have inOrder := all.sublist asks.languages
  exact (List.pairwise_map (f := fun order : Order => order.target.language)).1 inOrder

/-- Options place no other orders than these. -/
theorem Asks.unique {others : List Order} (asks : Asks o asked) (again : Asks o others) :
    asked = others := by
  have distinct {orders : List Order} (asks : Asks o orders) : orders.Nodup :=
    List.Nodup.of_map _ asks.nodup
  have same : asked.Perm others := (List.perm_ext_iff_of_nodup (distinct asks) (distinct again)).2
    fun order => (asks.listed order).trans (again.listed order).symm
  exact same.eq_of_pairwise (fun _ _ _ _ less more => absurd more (Nat.lt_asymm less))
    asks.increasing again.increasing

/-- A language is asked for by its directory, and by its package where it needs one. -/
theorem eq_of_requests {path package : String}
    (asks : o.value? (directorySetting language) = some path)
    (needs : match packageSetting? language with
      | some setting => o.value? setting = some package
      | none => package = "") (other : Order) :
    other = ⟨⟨language, package⟩, path⟩ ↔ other.target.language = language ∧ Requests o other := by
  constructor
  · rintro rfl
    exact ⟨rfl, asks, needs⟩
  · obtain ⟨⟨_, given⟩, directory⟩ := other
    rintro ⟨rfl, requests⟩
    obtain rfl := Option.some.inj (asks.symm.trans requests.directory)
    have own := requests.package
    dsimp only at needs own
    split at needs
    · rename_i setting named
      rw [named] at own
      rw [Option.some.inj (needs.symm.trans own)]
    · rename_i named
      rw [named] at own
      rw [needs, own]

/-- A language gives one order when it is asked for, and else none. -/
theorem order_eq_ok
    (ok : order o language (directorySetting language) (packageSetting? language) = .ok placed) :
    (placed.map (·.target.language)).Sublist [language] ∧
      ∀ other, other ∈ placed ↔ other.target.language = language ∧ Requests o other := by
  cases asks : o.value? (directorySetting language) with
  | none =>
    simp only [order, asks] at ok
    obtain rfl := Except.ok.inj ok
    refine ⟨List.nil_sublist _, fun other => iff_of_false List.not_mem_nil ?_⟩
    rintro ⟨rfl, requests⟩
    rw [requests.directory] at asks
    cases asks
  | some path =>
    cases named : packageSetting? language with
    | none =>
      simp only [order, asks, named] at ok
      obtain rfl := Except.ok.inj ok
      refine ⟨.refl _, fun other => List.mem_singleton.trans ?_⟩
      exact eq_of_requests asks (by rw [named]) other
    | some setting =>
      simp only [order, asks, named] at ok
      split at ok
      · rename_i package given
        obtain rfl := Except.ok.inj ok
        refine ⟨.refl _, fun other => List.mem_singleton.trans ?_⟩
        exact eq_of_requests asks (by rw [named]; exact given) other
      · cases ok

theorem packaged_of_order_eq_ok {setting : Setting}
    (ok : order o language (directorySetting language) (packageSetting? language) = .ok placed)
    (present : (o.value? (directorySetting language)).isSome = true)
    (named : packageSetting? language = some setting) : (o.value? setting).isSome = true := by
  obtain ⟨path, asks⟩ := Option.isSome_iff_exists.1 present
  simp only [order, asks, named] at ok
  split at ok
  · rename_i package given
    rw [given]
    rfl
  · cases ok

theorem not_complete_of_order_eq_error
    (fails : order o language (directorySetting language) (packageSetting? language) =
      .error fault) : ¬ Complete o := by
  intro complete
  cases asks : o.value? (directorySetting language) with
  | none =>
    simp only [order, asks] at fails
    cases fails
  | some path =>
    have present : (o.value? (directorySetting language)).isSome = true := by rw [asks]; rfl
    cases named : packageSetting? language with
    | none =>
      simp only [order, asks, named] at fails
      cases fails
    | some setting =>
      obtain ⟨package, given⟩ :=
        Option.isSome_iff_exists.1 (complete.packaged language setting present named)
      simp only [order, asks, named, given] at fails
      cases fails

theorem Complete.exists_requests (complete : Complete o) : ∃ order, Requests o order := by
  obtain ⟨language, present⟩ := complete.some
  obtain ⟨path, asks⟩ := Option.isSome_iff_exists.1 present
  cases named : packageSetting? language with
  | none => exact ⟨⟨⟨language, ""⟩, path⟩, asks, by rw [named]⟩
  | some setting =>
    obtain ⟨package, given⟩ :=
      Option.isSome_iff_exists.1 (complete.packaged language setting present named)
    exact ⟨⟨⟨language, package⟩, path⟩, asks, by rw [named]; exact given⟩

section Orders

variable {java rust go typescript : List Order}
  (okJava : order o .java (directorySetting .java) (packageSetting? .java) = .ok java)
  (okRust : order o .rust (directorySetting .rust) (packageSetting? .rust) = .ok rust)
  (okGo : order o .go (directorySetting .go) (packageSetting? .go) = .ok go)
  (okTypescript : order o .typescript (directorySetting .typescript)
    (packageSetting? .typescript) = .ok typescript)

include okJava okRust okGo okTypescript

theorem mem_orders (other : Order) :
    other ∈ java ++ rust ++ go ++ typescript ↔ Requests o other := by
  simp only [List.mem_append, (order_eq_ok okJava).2, (order_eq_ok okRust).2, (order_eq_ok okGo).2,
    (order_eq_ok okTypescript).2, ← or_and_right]
  refine and_iff_right_of_imp fun _ => ?_
  cases other.target.language <;> decide

theorem sublist_orders :
    ((java ++ rust ++ go ++ typescript).map (·.target.language)).Sublist
      [.java, .rust, .go, .typescript] := by
  simp only [List.map_append]
  exact (((order_eq_ok okJava).1.append (order_eq_ok okRust).1).append (order_eq_ok okGo).1).append
    (order_eq_ok okTypescript).1

theorem packaged_of_orders (language : Language) (setting : Setting)
    (present : (o.value? (directorySetting language)).isSome = true)
    (named : packageSetting? language = some setting) : (o.value? setting).isSome = true := by
  cases language with
  | java => exact packaged_of_order_eq_ok okJava present named
  | rust => exact packaged_of_order_eq_ok okRust present named
  | go => exact packaged_of_order_eq_ok okGo present named
  | typescript => exact packaged_of_order_eq_ok okTypescript present named

end Orders

theorem orders_eq_ok (ok : orders o = .ok asked) : Complete o ∧ Asks o asked := by
  obtain ⟨java, okJava, ok⟩ := (bind_eq_ok ..).1 ok
  obtain ⟨rust, okRust, ok⟩ := (bind_eq_ok ..).1 ok
  obtain ⟨go, okGo, ok⟩ := (bind_eq_ok ..).1 ok
  obtain ⟨typescript, okTypescript, ok⟩ := (bind_eq_ok ..).1 ok
  have listed := mem_orders okJava okRust okGo okTypescript
  dsimp only at ok
  split at ok
  · cases ok
  · rename_i filled
    obtain rfl := Except.ok.inj ok
    obtain ⟨first, member⟩ := List.isEmpty_eq_false_iff_exists_mem.1 (Bool.eq_false_iff.2 filled)
    refine ⟨⟨⟨first.target.language, ?_⟩, ?_⟩, listed, ?_⟩
    · rw [((listed first).1 member).directory]
      rfl
    · exact packaged_of_orders okJava okRust okGo okTypescript
    · exact sublist_orders okJava okRust okGo okTypescript

theorem orders_eq_error (fails : orders o = .error fault) : ¬ Complete o := by
  rcases (bind_eq_error ..).1 fails with fails | ⟨java, okJava, fails⟩
  · exact not_complete_of_order_eq_error fails
  rcases (bind_eq_error ..).1 fails with fails | ⟨rust, okRust, fails⟩
  · exact not_complete_of_order_eq_error fails
  rcases (bind_eq_error ..).1 fails with fails | ⟨go, okGo, fails⟩
  · exact not_complete_of_order_eq_error fails
  rcases (bind_eq_error ..).1 fails with fails | ⟨typescript, okTypescript, fails⟩
  · exact not_complete_of_order_eq_error fails
  dsimp only at fails
  split at fails
  · rename_i none
    intro complete
    obtain ⟨order, requests⟩ := complete.exists_requests
    have member := (mem_orders okJava okRust okGo okTypescript order).2 requests
    rw [List.isEmpty_iff.1 none] at member
    cases member
  · cases fails

end SchemaBindings.Command
