import RankObjective.Basic
import RankObjective.Sigmoid
import RankObjective.Dcg
import RankObjective.Ranking
import RankObjective.Lambdarank.Query
import RankObjective.Lambdarank.Pairs
import RankObjective.Lambdarank.Gradients
import RankObjective.Lambdarank.Hessians
import RankObjective.Lambdarank.Bias
import RankObjective.Lambdarank.Swap
import RankObjective.Lambdarank.Unbiased
import RankObjective.Lambdarank.Reads
import RankObjective.Lambdarank.Ranked
import RankObjective.Lambdarank.Balance
import RankObjective.Lambdarank.Surrogate
import RankObjective.Lambdarank.Scaling
import RankObjective.Lambdarank.Weights
import RankObjective.Lambdarank.Inert
import RankObjective.Xendcg
import RankObjective.XendcgLoss
import RankObjective.Isolation
import RankObjective.Invariance
