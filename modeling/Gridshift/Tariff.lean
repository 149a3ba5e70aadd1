import Gridshift.Segments

namespace Gridshift
open Segments
set_option autoImplicit true

structure Agreement where
  tariffCode : String
  validFrom : Option Int
  validTo : Option Int
deriving DecidableEq, Repr

structure ElectricityMeterPoint where
  agreements : List Agreement
deriving DecidableEq, Repr

structure Property where
  electricityMeterPoints : List ElectricityMeterPoint
deriving DecidableEq, Repr

structure Account where
  properties : List Property
deriving DecidableEq, Repr

def containsText (s text : String) : Bool := text.toList <:+: s.toList

/-- An agreement in force at an instant, and not for exported electricity. -/
def Agreement.current (a : Agreement) (now : Int) : Bool :=
  a.validFrom.all (· ≤ now) && a.validTo.all (now < ·) && !containsText a.tariffCode "OUTGOING"

def findAgileTariff (now : Int) (account : Account) : Option String :=
  ((((account.properties.flatMap Property.electricityMeterPoints).flatMap
    ElectricityMeterPoint.agreements).filter fun a => a.current now).map
      Agreement.tariffCode).find? fun code => containsText code "AGILE"

def segments (tariffCode : String) : List String :=
  (tariffCode.toList.splitOn '-').map String.ofList

/-- What is left of a tariff code without its first two segments and its last one; `none` is
the panic of a slice out of range. -/
def productCode (tariffCode : String) : Option String :=
  let parts := segments tariffCode
  (slice parts 2 (parts.length - 1)).map ("-".intercalate ·)

/-- The code is `a-b-product-c` with dashes nowhere in `a`, `b` and `c`. -/
def Framed (tariffCode product : String) : Prop :=
  ∃ a b c : String, '-' ∉ a.toList ∧ '-' ∉ b.toList ∧ '-' ∉ c.toList ∧
    tariffCode = s!"{a}-{b}-{product}-{c}"

theorem toList_framed (a b product c : String) :
    (s!"{a}-{b}-{product}-{c}").toList =
      framed '-' a.toList b.toList product.toList c.toList := by
  change (a ++ "-" ++ b ++ "-" ++ product ++ "-" ++ c).toList = _
  simp only [String.toList_append, List.append_assoc]
  rfl

theorem framed_iff : Framed tariffCode product ↔ ∃ a b c, '-' ∉ a ∧ '-' ∉ b ∧ '-' ∉ c ∧
    tariffCode.toList = framed '-' a b product.toList c := by
  constructor
  · rintro ⟨a, b, c, ha, hb, hc, rfl⟩
    exact ⟨a.toList, b.toList, c.toList, ha, hb, hc, toList_framed a b product c⟩
  · rintro ⟨a, b, c, ha, hb, hc, h⟩
    refine ⟨String.ofList a, String.ofList b, String.ofList c, ?_⟩
    rw [← String.toList_inj, toList_framed]
    simp only [String.toList_ofList]
    exact ⟨ha, hb, hc, h⟩

theorem length_segments (tariffCode : String) :
    (segments tariffCode).length = (tariffCode.toList.splitOn '-').length :=
  List.length_map _

theorem four_le_segments_iff (tariffCode : String) :
    4 ≤ (segments tariffCode).length ↔ ∃ product, Framed tariffCode product := by
  rw [length_segments, four_le_length_splitOn_iff]
  constructor
  · rintro ⟨a, b, p, c, ha, hb, hc, h⟩
    refine ⟨String.ofList p, framed_iff.2 ⟨a, b, c, ha, hb, hc, ?_⟩⟩
    rw [h, String.toList_ofList]
  · rintro ⟨product, h⟩
    obtain ⟨a, b, c, ha, hb, hc, h⟩ := framed_iff.1 h
    exact ⟨a, b, product.toList, c, ha, hb, hc, h⟩

theorem join_splitOn (s : String) :
    "-".intercalate ((s.toList.splitOn '-').map String.ofList) = s := by
  rw [← String.toList_inj, String.toList_intercalate, List.map_map]
  have hid : String.toList ∘ String.ofList = id := funext fun _ => String.toList_ofList
  rw [hid, List.map_id]
  exact List.intercalate_splitOn '-'

theorem productCode_of_framed (h : Framed tariffCode product) :
    productCode tariffCode = some product := by
  obtain ⟨a, b, c, ha, hb, hc, h⟩ := framed_iff.1 h
  simp only [productCode, length_segments]
  rw [segments, slice_map, h, slice_splitOn_framed ha hb hc, Option.map_some, Option.map_some,
    join_splitOn]

example : productCode "E-1R-AGILE-FLEX-22-11-25-C" = some "AGILE-FLEX-22-11-25" := by decide

end Gridshift
