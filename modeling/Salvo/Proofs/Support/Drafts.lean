import Mathlib.Tactic.SplitIfs
import Salvo.Document.Reading
import Salvo.Proofs.Json.Values
import Salvo.Proofs.Support.Lawful

/-! # Rules from drafts

A draft becomes a rule if it meets a list of demands (`SupportRule.Draft.demands`), and is refused
for the first that it does not meet. The demands come to `SupportRule.Draft.Lawful`, and the rule
that a lawful draft becomes says what the draft says (`SupportRule.Draft.Describes`). So a rule
that was read from a text can take effect, and no capacity that it gives exceeds 32 bits
(`SupportRule.rules_of_lawful_drafts`). -/

namespace Salvo.SupportRule

variable {rule : SupportRule} {error : SupportRuleError}

theorem neither_iff (a b : Bool) : (!a && !b) = true ↔ ¬ (a ∨ b) := by
  cases a <;> cases b <;> decide

theorem validate_eq_ok_iff :
    rule.validate = .ok () ↔
      rule.supported ≠ [] ∧ (rule.allied ∨ rule.enemy) ∧ (rule.offense ∨ rule.defense) := by
  unfold validate
  simp only [List.isEmpty_iff, neither_iff]
  split_ifs with hsupported hbeneficiary hactive
  · exact iff_of_false nofun fun h => h.1 hsupported
  · exact iff_of_true rfl ⟨hsupported, hbeneficiary, hactive⟩
  · exact iff_of_false nofun fun h => hactive h.2.2
  · exact iff_of_false nofun fun h => hbeneficiary h.2.1

theorem validate_eq_error_iff :
    rule.validate = .error error ↔
      rule.supported = [] ∧ .noSupportedTypes rule.name = error ∨
      rule.supported ≠ [] ∧ (¬ (rule.allied ∨ rule.enemy) ∧ .noBeneficiary rule.name = error ∨
        (rule.allied ∨ rule.enemy) ∧ ¬ (rule.offense ∨ rule.defense) ∧
          .neverActive rule.name = error) := by
  unfold validate
  simp only [List.isEmpty_iff, neither_iff]
  split_ifs with hsupported hbeneficiary hactive
  · simp [hsupported]
  · simp [hsupported, hbeneficiary, hactive]
  · simp [hsupported, hbeneficiary, hactive]
  · simp [hsupported, hbeneficiary]

/-! ## Lawful drafts -/

namespace Draft

structure Lawful (draft : Draft) : Prop where
  oneKind : draft.strength ≠ draft.rolls
  capacity_nonneg : 0 ≤ draft.capacity
  supported_ne_nil : draft.supported ≠ []
  beneficiary : draft.allied ∨ draft.enemy
  active : draft.offense ∨ draft.defense

/-- What is asked of a draft, in the order in which it is asked, with the errors of drafts that do
not have it. -/
def demands (draft : Draft) : List (Prop × SupportRuleError) :=
  [ (¬ (draft.strength ∧ draft.rolls), .ambiguousBonusKind draft.name),
    (draft.strength ∨ draft.rolls, .missingBonusKind draft.name),
    (0 ≤ draft.capacity, .negativeCapacity draft.name draft.capacity),
    (draft.supported ≠ [], .noSupportedTypes draft.name),
    (draft.allied ∨ draft.enemy, .noBeneficiary draft.name),
    (draft.offense ∨ draft.defense, .neverActive draft.name) ]

/-- The rule says what the draft says. -/
structure Describes (draft : Draft) (rule : SupportRule) : Prop where
  name : rule.name = draft.name
  supporter : rule.supporter = draft.supporter
  supported : rule.supported = draft.supported
  bonus : rule.bonus = draft.bonus
  capacity : (rule.capacity : Int) = draft.capacity
  strength : draft.strength = decide (rule.kind = .strength)
  rolls : draft.rolls = decide (rule.kind = .rolls)
  allied : rule.allied = draft.allied
  enemy : rule.enemy = draft.enemy
  offense : rule.offense = draft.offense
  defense : rule.defense = draft.defense
  bonusType : rule.bonusType = draft.bonusType.getD "default"
  players : rule.players = draft.players
  improvedArtillery : rule.improvedArtillery = draft.improvedArtillery

variable {draft : Draft} {kind : BonusKind}

theorem kind_eq_ok_iff :
    draft.kind = .ok kind ↔
      draft.strength = decide (kind = .strength) ∧ draft.rolls = decide (kind = .rolls) := by
  unfold Draft.kind
  cases draft.strength <;> cases draft.rolls <;> cases kind <;> simp

theorem kind_eq_error_iff :
    draft.kind = .error error ↔
      (draft.strength ∧ draft.rolls) ∧ .ambiguousBonusKind draft.name = error ∨
      ¬ (draft.strength ∨ draft.rolls) ∧ .missingBonusKind draft.name = error := by
  unfold Draft.kind
  cases draft.strength <;> cases draft.rolls <;> simp

theorem oneKind_of_kind (h : draft.kind = .ok kind) :
    draft.strength ≠ draft.rolls ∧ ¬ (draft.strength ∧ draft.rolls) ∧
      (draft.strength ∨ draft.rolls) := by
  obtain ⟨hstrength, hrolls⟩ := kind_eq_ok_iff.mp h
  rw [hstrength, hrolls]
  cases kind <;> decide

theorem not_oneKind_of_kind (h : draft.kind = .error error) : draft.strength = draft.rolls := by
  rcases kind_eq_error_iff.mp h with ⟨⟨hstrength, hrolls⟩, -⟩ | ⟨hneither, -⟩
  · exact hstrength.trans hrolls.symm
  · obtain ⟨hstrength, hrolls⟩ := not_or.mp hneither
    exact (eq_false_of_ne_true hstrength).trans (eq_false_of_ne_true hrolls).symm

/-- The rule of a draft for one kind of bonus. -/
def ruleOf (draft : Draft) (kind : BonusKind) : SupportRule where
  name := draft.name
  supporter := draft.supporter
  supported := draft.supported
  bonus := draft.bonus
  capacity := draft.capacity.toNat
  kind := kind
  allied := draft.allied
  enemy := draft.enemy
  offense := draft.offense
  defense := draft.defense
  bonusType := draft.bonusType.getD "default"
  players := draft.players
  improvedArtillery := draft.improvedArtillery

theorem toRule_of_kind (h : draft.kind = .ok kind) :
    draft.toRule =
      if draft.capacity < 0 then .error (.negativeCapacity draft.name draft.capacity)
      else (draft.ruleOf kind).validate >>= fun _ => .ok (draft.ruleOf kind) := by
  rw [toRule, h]
  rfl

theorem describes_iff (hkind : draft.kind = .ok kind) (hcapacity : 0 ≤ draft.capacity) :
    draft.Describes rule ↔ draft.ruleOf kind = rule := by
  obtain ⟨hstrength, hrolls⟩ := kind_eq_ok_iff.mp hkind
  constructor
  · intro h
    have hsame : rule.kind = kind :=
      Except.ok.inj ((kind_eq_ok_iff.mpr ⟨h.strength, h.rolls⟩).symm.trans hkind)
    have htoNat : draft.capacity.toNat = rule.capacity := by rw [← h.capacity, Int.toNat_natCast]
    rw [ruleOf, ← h.name, ← h.supporter, ← h.supported, ← h.bonus, htoNat, ← hsame, ← h.allied,
      ← h.enemy, ← h.offense, ← h.defense, ← h.bonusType, ← h.players, ← h.improvedArtillery]
  · rintro rfl
    exact { name := rfl, supporter := rfl, supported := rfl, bonus := rfl,
            capacity := Int.toNat_of_nonneg hcapacity,
            strength := hstrength, rolls := hrolls, allied := rfl, enemy := rfl, offense := rfl,
            defense := rfl, bonusType := rfl, players := rfl, improvedArtillery := rfl }

theorem toRule_of_not_kind (h : draft.kind = .error error) : draft.toRule = .error error := by
  rw [toRule, h]
  rfl

/-- A lawful draft becomes a rule, and no other draft does. -/
theorem toRule_eq_ok_iff : draft.toRule = .ok rule ↔ draft.Lawful ∧ draft.Describes rule := by
  cases hkind : draft.kind with
  | error cause =>
    rw [toRule_of_not_kind hkind]
    exact iff_of_false nofun fun h => h.1.oneKind (not_oneKind_of_kind hkind)
  | ok kind =>
    rw [toRule_of_kind hkind]
    split
    · rename_i hcapacity
      exact iff_of_false nofun fun h => Int.not_le.mpr hcapacity h.1.capacity_nonneg
    · rename_i hcapacity
      have hcapacity := Int.not_lt.mp hcapacity
      rw [bind_eq_ok_iff, describes_iff hkind hcapacity]
      constructor
      · rintro ⟨_, hvalid, hrule⟩
        obtain ⟨hsupported, hbeneficiary, hactive⟩ := validate_eq_ok_iff.mp hvalid
        exact ⟨⟨(oneKind_of_kind hkind).1, hcapacity, hsupported, hbeneficiary, hactive⟩,
          Except.ok.inj hrule⟩
      · rintro ⟨⟨-, -, hsupported, hbeneficiary, hactive⟩, hrule⟩
        exact ⟨(), validate_eq_ok_iff.mpr ⟨hsupported, hbeneficiary, hactive⟩, congrArg _ hrule⟩

theorem rule_of_mem_demands : ∀ demand ∈ draft.demands, demand.2.rule = draft.name := by
  simp only [demands, List.forall_mem_cons]
  exact ⟨rfl, rfl, rfl, rfl, rfl, rfl, List.forall_mem_nil _⟩

/-- A draft is refused for the first demand that it does not meet. -/
theorem toRule_eq_error_iff :
    draft.toRule = .error error ↔
      ∃ demand, IsFirstFailing (fun demand : Prop × SupportRuleError => demand.1) draft.demands
        demand ∧ demand.2 = error := by
  simp only [demands, exists_isFirstFailing_cons, not_isFirstFailing_nil, false_and, exists_false,
    and_false, or_false]
  cases hkind : draft.kind with
  | error cause =>
    rw [toRule_of_not_kind hkind]
    rcases kind_eq_error_iff.mp hkind with ⟨hboth, rfl⟩ | ⟨hneither, rfl⟩
    · simp [hboth]
    · have hnotBoth : ¬ (draft.strength ∧ draft.rolls) := fun h => hneither (.inl h.1)
      simp [hneither, hnotBoth]
  | ok kind =>
    obtain ⟨-, hnotBoth, hsome⟩ := oneKind_of_kind hkind
    simp only [hnotBoth, hsome, not_true, not_false_eq_true, false_and, true_and, false_or]
    rw [toRule_of_kind hkind]
    split
    · rename_i hcapacity
      simp [Int.not_le.mpr hcapacity]
    · rename_i hcapacity
      have hcapacity := Int.not_lt.mp hcapacity
      simp only [hcapacity, not_true, false_and, true_and, false_or]
      rw [bind_eq_error_iff, validate_eq_error_iff]
      simp [ruleOf]

theorem exists_toRule_iff : (∃ rule, draft.toRule = .ok rule) ↔ draft.Lawful := by
  simp only [toRule_eq_ok_iff]
  refine ⟨fun ⟨_, h⟩ => h.1, fun h => ?_⟩
  cases hkind : draft.kind with
  | error cause => exact absurd (not_oneKind_of_kind hkind) h.oneKind
  | ok kind => exact ⟨_, h, (describes_iff hkind h.capacity_nonneg).mpr rfl⟩

end Draft

/-! ## Lawful rules -/

theorem supporterSide_supporterSide (source : SupportSource) (side : Side) :
    supporterSide source (supporterSide source side) = side := by
  cases source <;> cases side <;> rfl

theorem exists_appliesTo (h : rule.validate = .ok ()) :
    ∃ pass ∈ SupportPass.all, ∃ side, pass.kind = rule.kind ∧
      rule.appliesTo pass.kind pass.source side := by
  obtain ⟨-, hbeneficiary, hactive⟩ := validate_eq_ok_iff.mp h
  obtain ⟨source, hallied, henemy⟩ : ∃ source : SupportSource,
      (source = .allied → rule.allied) ∧ (source = .enemy → rule.enemy) := by
    rcases hbeneficiary with hallied | henemy
    · exact ⟨.allied, fun _ => hallied, nofun⟩
    · exact ⟨.enemy, nofun, fun _ => henemy⟩
  obtain ⟨side, hside⟩ : ∃ side : Side, side.pick rule.offense rule.defense := by
    rcases hactive with hoffense | hdefense
    · exact ⟨.offense, hoffense⟩
    · exact ⟨.defense, hdefense⟩
  refine ⟨⟨rule.kind, source⟩, SupportPass.mem_all _, supporterSide source side, rfl, ?_⟩
  rw [appliesTo_iff, supporterSide_supporterSide]
  exact ⟨rfl, hallied, henemy, hside⟩

/-- Twice a capacity that a draft can have does not wrap around. -/
theorem capacityFor_of_le {rule : SupportRule} (h : (rule.capacity : Int) ≤ Amount.most)
    (owner : Player) :
    rule.capacityFor owner =
        (if rule.improvedArtillery && owner.technology.improvedArtillery then rule.capacity * 2
          else rule.capacity) ∧
      rule.capacityFor owner ≤ 2 ^ 32 - 2 := by
  simp only [capacityFor, Amount.most] at h ⊢
  split <;> omega

/-! ## Rules that are read -/

open Json Json.Reader

theorem Draft.yields_reader : Draft.reader.Yields fun draft => draft.capacity ≤ Amount.most := by
  refine .record ?_ (by decide)
  simp only [List.forall_mem_cons]
  refine ⟨?name, ?supporter, ?supported, ?bonus, ?capacity, ?strength, ?rolls, ?allied, ?enemy,
    ?offense, ?defense, ?bonusType, ?players, ?improvedArtillery, List.forall_mem_nil _⟩
  case capacity =>
    exact Field.keeps_required (yields_wholeIn ..) fun _ _ hcapacity _ => hcapacity.2
  case name | supporter | supported | bonus =>
    exact Field.keeps_required (.trivial _) fun _ _ _ h => h
  all_goals exact Field.keeps_optional (.trivial _) fun _ _ _ h => h

/-- The rules of a text come from drafts with a capacity of 32 bits. -/
theorem exists_draft_of_parse {text : String} {rules : List SupportRule}
    (h : parse (list reader) text = .ok rules) (hrule : rule ∈ rules) :
    ∃ draft : Draft, draft.capacity ≤ Amount.most ∧ draft.toRule = .ok rule := by
  have hreader : reader.Yields fun rule =>
      ∃ draft : Draft, draft.capacity ≤ Amount.most ∧ draft.toRule = .ok rule := by
    refine Draft.yields_reader.accept fun draft rule hcapacity hrule => ?_
    exact ⟨draft, hcapacity, mapError_eq_ok_iff.mp hrule⟩
  exact hreader.list.of_parse h rule hrule

/-- A draft becomes a rule just when it is lawful, and else it is refused by name for the first
demand that it does not meet. The rule says what the draft says, and it takes part in a pass of
its own kind on one of the sides and in none of the other kind. With a capacity of 32 bits no
supporter has so many slots that 32 bits without a sign could not count them, so that doubling them
is exact. All rules of a text are of this sort. -/
theorem rules_of_lawful_drafts :
    (∀ draft : Draft,
      ((∃ rule, draft.toRule = .ok rule) ↔ draft.Lawful) ∧
      (∀ error, draft.toRule = .error error ↔
        ∃ demand, IsFirstFailing (fun demand : Prop × SupportRuleError => demand.1) draft.demands
          demand ∧ demand.2 = error) ∧
      (∀ error, draft.toRule = .error error → error.rule = draft.name) ∧
      ∀ rule, draft.toRule = .ok rule →
        draft.Describes rule ∧
        rule.validate = .ok () ∧
        (∃ pass ∈ SupportPass.all, ∃ side, pass.kind = rule.kind ∧
          rule.appliesTo pass.kind pass.source side) ∧
        (∀ pass ∈ SupportPass.all, ∀ side, pass.kind ≠ rule.kind →
          ¬ rule.appliesTo pass.kind pass.source side) ∧
        (draft.capacity ≤ Amount.most → ∀ owner,
          rule.capacityFor owner =
              (if rule.improvedArtillery && owner.technology.improvedArtillery
                then rule.capacity * 2 else rule.capacity) ∧
            rule.capacityFor owner ≤ 2 ^ 32 - 2)) ∧
    ∀ text rules, parse (list reader) text = .ok rules → ∀ rule ∈ rules,
      ∃ draft : Draft, draft.capacity ≤ Amount.most ∧ draft.toRule = .ok rule := by
  refine ⟨fun draft => ⟨Draft.exists_toRule_iff, fun error => Draft.toRule_eq_error_iff,
    fun error h => ?_, fun rule h => ?_⟩, fun _ _ h _ hrule => exists_draft_of_parse h hrule⟩
  · obtain ⟨demand, hfirst, rfl⟩ := Draft.toRule_eq_error_iff.mp h
    exact Draft.rule_of_mem_demands demand hfirst.mem
  · obtain ⟨hlawful, hdescribes⟩ := Draft.toRule_eq_ok_iff.mp h
    have hvalid : rule.validate = .ok () := by
      refine validate_eq_ok_iff.mpr ⟨?_, ?_, ?_⟩
      · exact hdescribes.supported ▸ hlawful.supported_ne_nil
      · rw [hdescribes.allied, hdescribes.enemy]
        exact hlawful.beneficiary
      · rw [hdescribes.offense, hdescribes.defense]
        exact hlawful.active
    refine ⟨hdescribes, hvalid, exists_appliesTo hvalid, fun pass _ side hkind happlies => ?_,
      fun hcapacity owner => ?_⟩
    · exact hkind (appliesTo_iff.mp happlies).1.symm
    · have hsame := hdescribes.capacity
      exact capacityFor_of_le (by omega) owner

/-- Guns that weaken the enemy as often as 32 bits can say, and a draft with two faults. -/
theorem rules_of_barrage_drafts :
    let barrage : Draft :=
      { name := "barrage", supporter := "artillery", supported := ["infantry"], bonus := -1
        capacity := 2147483647, strength := true, enemy := true, offense := true
        improvedArtillery := true }
    let faulty : Draft := { barrage with capacity := -1, enemy := false }
    let owner : Player := { name := "Germans", technology := { improvedArtillery := true } }
    let text := "[[\"barrage\", \"artillery\", [\"infantry\"], -1, 2147483647, " ++
      "true, false, false, true, true]]"
    (∃ rule, barrage.toRule = .ok rule ∧ barrage.Describes rule ∧
      (∃ pass ∈ SupportPass.all, ∃ side, pass.kind = .strength ∧
        rule.appliesTo pass.kind pass.source side) ∧
      (∀ side, ¬ rule.appliesTo .rolls .enemy side) ∧
      rule.capacityFor owner = 4294967294 ∧ rule.capacityFor owner ≤ 2 ^ 32 - 2) ∧
    faulty.toRule = .error (.negativeCapacity "barrage" (-1)) ∧
    ∃ rules, parse (list reader) text = .ok rules ∧ rules.map (·.name) = ["barrage"] ∧
      ∀ rule ∈ rules, ∃ draft : Draft, draft.capacity ≤ Amount.most ∧ draft.toRule = .ok rule := by
  intro barrage faulty owner text
  obtain ⟨hdrafts, htexts⟩ := rules_of_lawful_drafts
  refine ⟨?_, ?_, ?_⟩
  · obtain ⟨haccepted, -, -, hrules⟩ := hdrafts barrage
    obtain ⟨rule, hrule⟩ := haccepted.mpr
      ⟨by decide, by decide, by decide, by decide, by decide⟩
    obtain ⟨hdescribes, -, hpass, hother, hcapacity⟩ := hrules rule hrule
    have hstrength : rule.kind = .strength := by simpa [barrage] using hdescribes.strength
    rw [hstrength] at hpass hother
    refine ⟨rule, hrule, hdescribes, hpass, fun side => ?_, ?_, (hcapacity (by decide) owner).2⟩
    · exact hother ⟨.rolls, .enemy⟩ (by decide) side (by decide)
    · cases hrule
      decide
  · obtain ⟨-, hrefused, -⟩ := hdrafts faulty
    refine (hrefused _).mpr ⟨_, ⟨faulty.demands.take 2, faulty.demands.drop 3, rfl, ?_, ?_⟩, rfl⟩
    · simp [Draft.demands, faulty, barrage]
    · simp [faulty]
  · have hread : (parse (list reader) text).toOption.map (·.map (·.name)) = some ["barrage"] := by
      decide +kernel
    obtain ⟨rules, hparse, hnames⟩ := exists_ok_of_toOption_map hread
    exact ⟨rules, hparse, hnames, htexts text rules hparse⟩

end Salvo.SupportRule
