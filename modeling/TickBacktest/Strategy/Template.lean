import TickBacktest.Strategy.Spec

/-! # Templates

Strategies to start from. Each comes with a category, a difficulty and a description. -/

namespace TickBacktest.Strategy

/-- A strategy to start from. -/
structure Template where
  id : String
  category : String
  difficulty : String
  description : String
  strategy : Spec

namespace Template

/-- A function. -/
def function (id name expression : String) : FunctionSpec :=
  ⟨some id, some name, some expression⟩

/-- A condition. -/
def condition (id operator : String) (threshold : Float) : ConditionSpec :=
  ⟨some id, some operator, some (.ofFloat threshold)⟩

/-- A rule whose conditions must all be met. -/
def whenAll (conditions : List ConditionSpec) (action : String) : RuleSpec :=
  ⟨conditions, some "AND", some action⟩

/-- A rule that goes flat once a function is back between two values. -/
def flatBetween (id : String) (low high : Float) : RuleSpec :=
  whenAll [condition id ">=" low, condition id "<=" high] "FLAT"

def averageReversion : Template where
  id := "sma_mean_reversion"
  category := "Mean Reversion"
  difficulty := "Beginner"
  description := "Buy when price drops below moving average, sell when above"
  strategy :=
    { name := some "SMA Mean Reversion"
      functions := [function "sma_ratio" "Price/SMA Ratio" "mid / SMA(mid, 50)"]
      entryRules :=
        [whenAll [condition "sma_ratio" "<" 0.998] "BUY",
          whenAll [condition "sma_ratio" ">" 1.002] "SELL"]
      exitRules := [flatBetween "sma_ratio" 0.9995 1.0005] }

def bollingerBands : Template where
  id := "bollinger_bands"
  category := "Volatility"
  difficulty := "Intermediate"
  description := "Trade when price breaks out of Bollinger Bands"
  strategy :=
    { name := some "Bollinger Band Position"
      functions :=
        [function "upper_band" "Upper Bollinger Band" "SMA(mid, 20) + 2 * STD(mid, 20)",
          function "lower_band" "Lower Bollinger Band" "SMA(mid, 20) - 2 * STD(mid, 20)",
          function "bb_position" "BB Position"
            "(mid - (SMA(mid, 20) - 2 * STD(mid, 20))) / (4 * STD(mid, 20))"]
      entryRules :=
        [whenAll [condition "bb_position" "<" 0.1] "BUY",
          whenAll [condition "bb_position" ">" 0.9] "SELL"]
      exitRules := [flatBetween "bb_position" 0.45 0.55] }

def momentumTrend : Template where
  id := "momentum_trend"
  category := "Momentum"
  difficulty := "Beginner"
  description := "Follow strong momentum trends"
  strategy :=
    { name := some "Momentum Trend Following"
      functions :=
        [function "momentum_short" "Short-term Momentum" "MOMENTUM(mid, 10)",
          function "momentum_long" "Long-term Momentum" "MOMENTUM(mid, 30)"]
      entryRules :=
        [whenAll
            [condition "momentum_short" ">" 0.001, condition "momentum_long" ">" 0.0005] "BUY",
          whenAll
            [condition "momentum_short" "<" (-0.001), condition "momentum_long" "<" (-0.0005)]
            "SELL"]
      exitRules := [flatBetween "momentum_short" (-0.0002) 0.0002] }

def spreadAware : Template where
  id := "spread_aware_mr"
  category := "Mean Reversion"
  difficulty := "Intermediate"
  description := "Mean reversion that only trades when spread is tight"
  strategy :=
    { name := some "Spread-Aware Mean Reversion"
      functions :=
        [function "price_deviation" "Price Deviation" "(mid - SMA(mid, 40)) / SMA(mid, 40)",
          function "spread_quality" "Spread Quality" "spread / SMA(spread, 20)"]
      entryRules :=
        [whenAll
            [condition "price_deviation" "<" (-0.0003), condition "spread_quality" "<" 0.8]
            "BUY",
          whenAll
            [condition "price_deviation" ">" 0.0003, condition "spread_quality" "<" 0.8] "SELL"]
      exitRules :=
        [flatBetween "price_deviation" (-0.0001) 0.0001,
          whenAll [condition "spread_quality" ">" 2.0] "FLAT"] }

def averageCrossover : Template where
  id := "ema_crossover"
  category := "Trend Following"
  difficulty := "Beginner"
  description := "Trade on exponential moving average crossovers"
  strategy :=
    { name := some "EMA Crossover"
      functions :=
        [function "ema_fast" "Fast EMA" "EMA(mid, 12)",
          function "ema_slow" "Slow EMA" "EMA(mid, 26)",
          function "ema_ratio" "EMA Ratio" "EMA(mid, 12) / EMA(mid, 26)"]
      entryRules :=
        [whenAll [condition "ema_ratio" ">" 1.0005] "BUY",
          whenAll [condition "ema_ratio" "<" 0.9995] "SELL"]
      exitRules := [flatBetween "ema_ratio" 0.9998 1.0002] }

/-- The templates in the order in which they are listed. -/
def all : List Template :=
  [averageReversion, bollingerBands, momentumTrend, spreadAware, averageCrossover]

/-- The template of an id. -/
def find? (id : String) : Option Template := all.find? (·.id = id)

/-- The template as a document. -/
def toJson (t : Template) : Json :=
  .object
    [("id", .text t.id), ("category", .text t.category), ("difficulty", .text t.difficulty),
      ("description", .text t.description), ("strategy", t.strategy.toJson)]

end Template

end TickBacktest.Strategy
